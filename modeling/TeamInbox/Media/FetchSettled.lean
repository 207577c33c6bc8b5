import TeamInbox.Media.AttachmentFetch
import Mathlib.Tactic.Cases

/-!
# TeamInbox.Media.FetchSettled — what fetches leave behind

A fetch writes only under its own lease, so one whose lease was taken over changes nothing and an attachment that is
available stays as it is.  No object is left over and no attachment is claimed too often, as long as no fetch comes to
its failure record with an object it has uploaded and not stored, and no lease that has run out is taken over after the
last permitted attempt: the `catch` block does not delete the object, and it is the only place where the attempts are
counted against the limit.
-/

namespace TeamInbox.Media

open TeamInbox.Lib

def FetchStage.claim : FetchStage → Option AttachmentClaim
  | .idle => none
  | .claimed c | .downloaded c _ | .uploaded c _ _ | .unstored c _ | .failing c _ _ => some c

def FetchDb.Stores (s : FetchDb) (object : ℕ) : Prop := ∃ r, s.attachment = some r ∧ r.storageURI = some object

instance (s : FetchDb) (object : ℕ) : Decidable (s.Stores object) :=
  decidable_of_iff (s.attachment.any fun r => decide (r.storageURI = some object))
    (by simp [FetchDb.Stores, Option.any_eq_true])

def TakenOver (s : FetchDb) (c : AttachmentClaim) : Prop := c.leaseToken + 1 ≠ s.nextToken

structure FetchSafe (t : Calls FetchDb FetchStage) (a : CallAction FetchAction TelegramUpsert)
    (t' : Calls FetchDb FetchStage) : Prop where
  fenced : ∀ p b c, a = .act p b → (t.calls p).claim = some c → TakenOver t.shared c →
    t'.shared.attachment = t.shared.attachment ∧ t'.shared.message = t.shared.message
  final : ∀ p b r, a = .act p b → t.shared.attachment = some r → r.status = .available →
    ∃ r', t'.shared.attachment = some r' ∧ r'.status = .available ∧ r'.storageURI = r.storageURI
  mirrored : ∀ r, t'.shared.attachment = some r → r.status = .available →
    ∃ m, t'.shared.message = some m ∧ m.mediaURL = r.storageURI
  settled : ∀ o ∈ t'.shared.finished, t'.shared.Stores o ∨ o ∈ t'.shared.deleted
  bounded : t'.shared.claims ≤ maxFetchAttempts

def FetchStage.leftover : FetchStage → Option ℕ
  | .failing _ _ object => object
  | _ => none

/-- No expired lease is taken over after the last attempt, and no failure is recorded over an object that is not
stored. -/
def Tidy (s : FetchDb) (x : FetchStage) : FetchAction → Prop
  | .claim _ => ∀ r ∈ s.attachment, r.lease.isSome = true → r.fetchAttempts < maxFetchAttempts
  | .record _ _ => ∀ object ∈ x.leftover, s.Stores object
  | _ => True

def TidyStep (t : Calls FetchDb FetchStage) : CallAction FetchAction TelegramUpsert → Prop
  | .act p a => Tidy t.shared (t.calls p) a
  | .env _ => True

/-! ### Assertions -/

structure FetchInv (s : FetchDb) : Prop where
  leased : ∀ r l, s.attachment = some r → r.lease = some l → l.token + 1 = s.nextToken ∧ r.status = .pending
  bare : ∀ r, s.attachment = some r → r.status ≠ .available → r.storageURI = none
  mirrored : ∀ r, s.attachment = some r → r.status = .available → ∃ m, s.message = some m ∧ m.mediaURL = r.storageURI
  message : s.attachment ≠ none → s.message ≠ none
  settled : ∀ o ∈ s.finished, s.Stores o ∨ o ∈ s.deleted
  unclaimed : s.attachment = none → s.claims = 0
  counted : ∀ r, s.attachment = some r → s.claims ≤ r.fetchAttempts ∧ (maxFetchAttempts < r.fetchAttempts → s.claims ≤ 1)
  /-- a pending attachment without a lease and without attempts left has been reset -/
  spent : ∀ r, s.attachment = some r → r.status = .pending → r.lease = none → maxFetchAttempts ≤ r.fetchAttempts →
    s.claims = 0

structure ClaimOk (s : FetchDb) (c : AttachmentClaim) : Prop where
  issued : c.leaseToken < s.nextToken
  attempts : ∀ r l, s.attachment = some r → r.lease = some l → l.token = c.leaseToken → r.fetchAttempts = c.attempts

def FetchOk (s : FetchDb) (_ : ℕ) (x : FetchStage) : Prop := ∀ c, x.claim = some c → ClaimOk s c

/-- The leases there are were there before, with the attempts they count, or are new. -/
structure LeasesFrom (s s' : FetchDb) : Prop where
  token : s.nextToken ≤ s'.nextToken
  lease : ∀ r' l, s'.attachment = some r' → r'.lease = some l →
    (∃ r, s.attachment = some r ∧ r.lease = some l ∧ r.fetchAttempts = r'.fetchAttempts) ∨ s.nextToken ≤ l.token

variable {s s' : FetchDb} {c : AttachmentClaim} {x y : FetchStage} {a : FetchAction} {p : ℕ} {r : AttachmentRow}

theorem ClaimOk.keep (h : ClaimOk s c) (hl : LeasesFrom s s') : ClaimOk s' c := by
  refine ⟨lt_of_lt_of_le h.issued hl.token, fun r' l hr' hlease htoken => ?_⟩
  rcases hl.lease r' l hr' hlease with ⟨r, hr, hold, hattempts⟩ | hnew
  · exact hattempts.symm.trans (h.attempts r l hr hold htoken)
  · have hlt := h.issued
    omega

theorem fetchOk_idle : FetchOk s p .idle := by
  intro c hc
  cases hc

theorem LeasesFrom.refl : LeasesFrom s s := ⟨le_rfl, fun r l hr hl => .inl ⟨r, hr, hl, rfl⟩⟩

theorem LeasesFrom.of_eq (hattachment : s'.attachment = s.attachment) (htoken : s'.nextToken = s.nextToken) :
    LeasesFrom s s' :=
  ⟨htoken.ge, fun r l hr hl => .inl ⟨r, hattachment ▸ hr, hl, rfl⟩⟩

theorem holdsLease_iff : holdsLease c s = true ↔ ∃ r l, s.attachment = some r ∧ r.lease = some l ∧ l.token = c.leaseToken := by
  simp [holdsLease, Option.any_eq_true]

theorem FetchInv.not_takenOver (hs : FetchInv s) (h : holdsLease c s = true) : ¬ TakenOver s c := by
  obtain ⟨r, l, hr, hl, htoken⟩ := holdsLease_iff.mp h
  have hlast := (hs.leased r l hr hl).1
  unfold TakenOver
  omega

/-! ### Statements -/

theorem claimAttachment_some {now : ℕ} (h : claimAttachment now s = some (s', y)) :
    ∃ r id, s.attachment = some r ∧ r.status = .pending ∧
      s' = { s with
        attachment := some
          { r with
            fetchAttempts := r.fetchAttempts + 1
            lease := some ⟨s.nextToken, now + fetchLease⟩ }
        nextToken := s.nextToken + 1
        claims := s.claims + 1 } ∧
      y = .claimed ⟨id, r.fileName, r.contentType, r.fetchAttempts + 1, s.nextToken⟩ := by
  obtain ⟨r, hr, h⟩ := Option.bind_eq_some_iff.mp h
  obtain ⟨id, -, h⟩ := Option.bind_eq_some_iff.mp h
  split_ifs at h with hclaimable
  obtain ⟨rfl, rfl⟩ := Prod.mk.inj (Option.some.inj h)
  simp only [claimable, Bool.and_eq_true, decide_eq_true_eq] at hclaimable
  exact ⟨r, id, hr, hclaimable.1.1.1, rfl, rfl⟩

theorem claim_ok {now : ℕ} (hs : FetchInv s)
    (hC : ∀ r, s.attachment = some r → r.lease.isSome = true → r.fetchAttempts < maxFetchAttempts)
    (h : claimAttachment now s = some (s', y)) : FetchInv s' ∧ FetchOk s' p y ∧ LeasesFrom s s' := by
  obtain ⟨r, id, hr, hpending, rfl, rfl⟩ := claimAttachment_some h
  obtain ⟨hle, hover⟩ := hs.counted r hr
  have hbare := hs.bare r hr (by rw [hpending]; decide)
  refine ⟨⟨?_, ?_, ?_, ?_, ?_, ?_, ?_, ?_⟩, ?_, Nat.le_succ _, ?_⟩
  · rintro r' l hr' hl
    obtain rfl := Option.some.inj hr'
    obtain rfl := Option.some.inj hl
    exact ⟨rfl, hpending⟩
  · rintro r' hr' -
    obtain rfl := Option.some.inj hr'
    exact hbare
  · intro r' hr' havailable
    obtain rfl := Option.some.inj hr'
    have havailable : r.status = .available := havailable
    rw [hpending] at havailable
    cases havailable
  · intro _
    exact hs.message (by rw [hr]; exact Option.some_ne_none r)
  · intro o ho
    refine (hs.settled o ho).imp_left ?_
    rintro ⟨r', hr', hstored⟩
    rw [hr] at hr'
    obtain rfl := Option.some.inj hr'
    rw [hbare] at hstored
    cases hstored
  · intro hnone
    cases hnone
  · intro r' hr'
    obtain rfl := Option.some.inj hr'
    refine ⟨Nat.succ_le_succ hle, fun hmax => ?_⟩
    have hmax : maxFetchAttempts < r.fetchAttempts + 1 := hmax
    -- without attempts left, the claim finds no lease, so it is the first since the reset
    have hfree : r.lease = none := by
      by_contra hsome
      have hlt := hC r hr (Option.isSome_iff_ne_none.mpr hsome)
      omega
    have hzero := hs.spent r hr hpending hfree (by omega)
    show s.claims + 1 ≤ 1
    omega
  · intro r' hr' _ hl
    obtain rfl := Option.some.inj hr'
    cases hl
  · intro c hc
    obtain rfl := Option.some.inj hc
    refine ⟨Nat.lt_succ_self _, fun r' l hr' _ _ => ?_⟩
    obtain rfl := Option.some.inj hr'
    rfl
  · intro r' l hr' hl
    obtain rfl := Option.some.inj hr'
    obtain rfl := Option.some.inj hl
    exact .inr le_rfl

theorem finish_ok {object : Option ℕ} (hs : FetchInv s) (h : ∀ o ∈ object, s.Stores o ∨ o ∈ s.deleted) :
    FetchInv (finish object s) := by
  refine ⟨hs.leased, hs.bare, hs.mirrored, hs.message, fun o ho => ?_, hs.unclaimed, hs.counted, hs.spent⟩
  rcases List.mem_append.mp ho with hnew | hold
  · exact h o (by simpa using hnew)
  · exact hs.settled o hold

theorem storeObject_ok (d : DownloadedFile) (object : ℕ) (hs : FetchInv s) (hheld : holdsLease c s = true) :
    FetchInv (storeObject c d object s) ∧ (storeObject c d object s).Stores object ∧
      LeasesFrom s (storeObject c d object s) := by
  obtain ⟨r, l, hr, hl, -⟩ := holdsLease_iff.mp hheld
  have hpending := (hs.leased r l hr hl).2
  have hbare := hs.bare r hr (by rw [hpending]; decide)
  obtain ⟨m, hm⟩ := Option.ne_none_iff_exists'.mp (hs.message (by rw [hr]; exact Option.some_ne_none r))
  have hrow : ∀ r', (storeObject c d object s).attachment = some r' →
      r'.lease = none ∧ r'.status = .available ∧ r'.storageURI = some object ∧ r'.fetchAttempts = r.fetchAttempts := by
    intro r' hr'
    simp only [storeObject, hr, Option.map_some, Option.some.injEq] at hr'
    subst hr'
    exact ⟨rfl, rfl, rfl, rfl⟩
  have hsome : ∃ r', (storeObject c d object s).attachment = some r' := by
    simp [storeObject, hr]
  obtain ⟨r₁, hr₁⟩ := hsome
  have hstores : (storeObject c d object s).Stores object := ⟨r₁, hr₁, (hrow r₁ hr₁).2.2.1⟩
  refine ⟨⟨?_, ?_, ?_, ?_, ?_, ?_, ?_, ?_⟩, hstores, le_rfl, ?_⟩
  · intro r' l' hr' hl'
    rw [(hrow r' hr').1] at hl'
    cases hl'
  · intro r' hr' hne
    exact absurd (hrow r' hr').2.1 hne
  · intro r' hr' _
    rw [(hrow r' hr').2.2.1]
    simp [storeObject, hm]
  · intro _
    simp [storeObject, hm]
  · intro o ho
    refine (hs.settled o ho).imp_left ?_
    rintro ⟨r', hr', hstored⟩
    rw [hr] at hr'
    obtain rfl := Option.some.inj hr'
    rw [hbare] at hstored
    cases hstored
  · intro hnone
    rw [hr₁] at hnone
    cases hnone
  · intro r' hr'
    rw [(hrow r' hr').2.2.2]
    exact hs.counted r hr
  · intro r' hr' hp
    rw [(hrow r' hr').2.1] at hp
    cases hp
  · intro r' l' hr' hl'
    rw [(hrow r' hr').1] at hl'
    cases hl'

def failedRow (now : ℕ) (c : AttachmentClaim) (permanent : Bool) (r : AttachmentRow) : AttachmentRow :=
  { r with
    status := if permanent ∨ maxFetchAttempts ≤ c.attempts then .failed else .pending
    errorCode := some (if permanent then "attachment_too_large_or_invalid" else "attachment_fetch_failed")
    nextFetchAt := now + fetchBackoff c.attempts
    lease := none }

theorem recordFailure_held {now : ℕ} {permanent : Bool} (h : holdsLease c s = true) :
    recordFailure now c permanent s = { s with attachment := s.attachment.map (failedRow now c permanent) } := by
  unfold recordFailure
  rw [if_pos h]
  rfl

theorem recordFailure_lost {now : ℕ} {permanent : Bool} (h : ¬ holdsLease c s = true) :
    recordFailure now c permanent s = s := by
  unfold recordFailure
  rw [if_neg h]

theorem failedRow_status {now : ℕ} {permanent : Bool} : (failedRow now c permanent r).status ≠ .available := by
  unfold failedRow
  dsimp only
  split_ifs <;> decide

theorem failedRow_pending {now : ℕ} {permanent : Bool} (h : (failedRow now c permanent r).status = .pending) :
    c.attempts < maxFetchAttempts := by
  by_contra hmax
  have hfailed : (failedRow now c permanent r).status = .failed := if_pos (.inr (not_lt.mp hmax))
  rw [hfailed] at h
  cases h

theorem recordFailure_ok (now : ℕ) (permanent : Bool) (hs : FetchInv s) (hc : ClaimOk s c) :
    FetchInv (recordFailure now c permanent s) ∧ LeasesFrom s (recordFailure now c permanent s) ∧
      (∀ o, s.Stores o → (recordFailure now c permanent s).Stores o) := by
  by_cases hheld : holdsLease c s = true
  swap
  · rw [recordFailure_lost hheld]
    exact ⟨hs, .refl, fun _ ho => ho⟩
  obtain ⟨r, l, hr, hl, htoken⟩ := holdsLease_iff.mp hheld
  have hpending := (hs.leased r l hr hl).2
  have hbare := hs.bare r hr (by rw [hpending]; decide)
  have hattempts := hc.attempts r l hr hl htoken
  have hstores : ∀ o, ¬ s.Stores o := by
    rintro o ⟨r', hr', hstored⟩
    rw [hr] at hr'
    obtain rfl := Option.some.inj hr'
    rw [hbare] at hstored
    cases hstored
  rw [recordFailure_held hheld, hr, Option.map_some]
  refine ⟨⟨?_, ?_, ?_, ?_, ?_, ?_, ?_, ?_⟩, ⟨le_rfl, ?_⟩, fun o ho => absurd ho (hstores o)⟩
  · intro r' l' hr' hl'
    obtain rfl := Option.some.inj hr'
    cases hl'
  · rintro r' hr' -
    obtain rfl := Option.some.inj hr'
    exact hbare
  · intro r' hr' havailable
    obtain rfl := Option.some.inj hr'
    exact absurd havailable failedRow_status
  · intro _
    exact hs.message (by rw [hr]; exact Option.some_ne_none r)
  · exact fun o ho => (hs.settled o ho).imp_left fun h => absurd h (hstores o)
  · intro hnone
    cases hnone
  · intro r' hr'
    obtain rfl := Option.some.inj hr'
    exact hs.counted r hr
  · intro r' hr' hp _ hmax
    obtain rfl := Option.some.inj hr'
    have hmax : maxFetchAttempts ≤ r.fetchAttempts := hmax
    have hlt := failedRow_pending hp
    omega
  · intro r' l' hr' hl'
    obtain rfl := Option.some.inj hr'
    cases hl'

/-! ### Events -/

theorem updated_storageURI {f : TelegramFile} :
    (updatedAttachment (normalizeAttachments f) r).storageURI = r.storageURI := rfl

theorem updated_available {f : TelegramFile} :
    (updatedAttachment (normalizeAttachments f) r).status = .available ↔ r.status = .available := by
  unfold updatedAttachment normalizeAttachments
  dsimp only
  split_ifs with h
  · simp
  · simp [show r.status ≠ .available from fun h' => h ⟨h', rfl⟩]

theorem updated_pending {f : TelegramFile} :
    (updatedAttachment (normalizeAttachments f) r).status = .pending ↔ r.status ≠ .available := by
  unfold updatedAttachment normalizeAttachments
  dsimp only
  split_ifs with h
  · simp [h.1]
  · simp [show r.status ≠ .available from fun h' => h ⟨h', rfl⟩]

structure EventOk (s s' : FetchDb) : Prop where
  inv : FetchInv s'
  leases : LeasesFrom s s'
  final : ∀ r, s.attachment = some r → r.status = .available →
    ∃ r', s'.attachment = some r' ∧ r'.status = .available ∧ r'.storageURI = r.storageURI

theorem replaceAttachments_new {now : ℕ} {f : TelegramFile} (hs : FetchInv s) (hm : s.message ≠ none)
    (hnone : s.attachment = none) : EventOk s (replaceAttachments now (normalizeAttachments f) s) := by
  unfold replaceAttachments
  rw [hnone]
  refine ⟨⟨?_, ?_, ?_, fun _ => hm, ?_, ?_, ?_, ?_⟩, ⟨le_rfl, ?_⟩, ?_⟩
  · intro r l hr hl
    obtain rfl := Option.some.inj hr
    cases hl
  · intro r hr _
    obtain rfl := Option.some.inj hr
    rfl
  · intro r hr havailable
    obtain rfl := Option.some.inj hr
    cases havailable
  · intro o ho
    refine (hs.settled o ho).imp_left ?_
    rintro ⟨r, hr, -⟩
    rw [hnone] at hr
    cases hr
  · exact fun _ => rfl
  · exact fun r _ => ⟨Nat.zero_le _, fun _ => Nat.zero_le _⟩
  · exact fun _ _ _ _ _ => rfl
  · intro r l hr hl
    obtain rfl := Option.some.inj hr
    cases hl
  · intro r hr
    rw [hnone] at hr
    cases hr

theorem replaceAttachments_old {now : ℕ} {f : TelegramFile} (hs : FetchInv s) (hr : s.attachment = some r) :
    EventOk s (replaceAttachments now (normalizeAttachments f) s) := by
  unfold replaceAttachments
  rw [hr]
  refine ⟨⟨?_, ?_, ?_, ?_, ?_, ?_, ?_, ?_⟩, ⟨le_rfl, ?_⟩, ?_⟩
  · intro r' l hr' hl
    obtain rfl := Option.some.inj hr'
    obtain ⟨hlast, hpending⟩ := hs.leased r l hr hl
    exact ⟨hlast, updated_pending.mpr (by rw [hpending]; decide)⟩
  · intro r' hr' hne
    obtain rfl := Option.some.inj hr'
    exact updated_storageURI.trans (hs.bare r hr fun h => hne (updated_available.mpr h))
  · intro r' hr' havailable
    obtain rfl := Option.some.inj hr'
    exact hs.mirrored r hr (updated_available.mp havailable)
  · intro _
    exact hs.message (by rw [hr]; exact Option.some_ne_none r)
  · intro o ho
    refine (hs.settled o ho).imp_left ?_
    rintro ⟨r', hr', hstored⟩
    rw [hr] at hr'
    obtain rfl := Option.some.inj hr'
    exact ⟨_, rfl, updated_storageURI.trans hstored⟩
  · intro hnone
    cases hnone
  · intro r' hr'
    obtain rfl := Option.some.inj hr'
    dsimp only
    split_ifs
    · exact ⟨Nat.zero_le _, fun _ => Nat.zero_le _⟩
    · exact hs.counted r hr
  · intro r' hr' hp hl hmax
    obtain rfl := Option.some.inj hr'
    dsimp only
    split_ifs with hreset
    · rfl
    · have hpending : r.status = .pending := by
        by_contra hne
        exact hreset ⟨hne, hp⟩
      exact hs.spent r hr hpending hl hmax
  · intro r' l hr' hl
    obtain rfl := Option.some.inj hr'
    exact .inl ⟨r, hr, hl, rfl⟩
  · intro r' hr' havailable
    rw [hr] at hr'
    obtain rfl := Option.some.inj hr'
    exact ⟨_, rfl, updated_available.mpr havailable, updated_storageURI⟩

theorem replaceAttachments_ok {now : ℕ} {f : TelegramFile} (hs : FetchInv s) (hm : s.message ≠ none) :
    EventOk s (replaceAttachments now (normalizeAttachments f) s) := by
  cases hr : s.attachment with
  | none => exact replaceAttachments_new hs hm hr
  | some r => exact replaceAttachments_old hs hr

theorem EventOk.refl (hs : FetchInv s) : EventOk s s := ⟨hs, .refl, fun r hr havailable => ⟨r, hr, havailable, rfl⟩⟩

theorem inv_message {m : MediaMessage} (hs : FetchInv s)
    (h : ∀ m', s.message = some m' → m.mediaURL = m'.mediaURL) : FetchInv { s with message := some m } := by
  refine ⟨hs.leased, hs.bare, fun r hr havailable => ?_, fun _ => Option.some_ne_none m, hs.settled, hs.unclaimed,
    hs.counted, hs.spent⟩
  obtain ⟨m', hm', hurl⟩ := hs.mirrored r hr havailable
  exact ⟨m, rfl, (h m' hm').trans hurl⟩

theorem message_ok {m : MediaMessage} (hs : FetchInv s)
    (h : ∀ m', s.message = some m' → m.mediaURL = m'.mediaURL) : EventOk s { s with message := some m } :=
  ⟨inv_message hs h, .of_eq rfl rfl, fun r hr havailable => ⟨r, hr, havailable, rfl⟩⟩

theorem media_ok {m : MediaMessage} {now : ℕ} {f : TelegramFile} (hs : FetchInv s)
    (h : ∀ m', s.message = some m' → m.mediaURL = m'.mediaURL) :
    EventOk s (replaceAttachments now (normalizeAttachments f) { s with message := some m }) := by
  have hreplaced : EventOk { s with message := some m }
      (replaceAttachments now (normalizeAttachments f) { s with message := some m }) :=
    replaceAttachments_ok (inv_message hs h) (Option.some_ne_none m)
  exact ⟨hreplaced.inv, ⟨hreplaced.leases.token, hreplaced.leases.lease⟩, hreplaced.final⟩

theorem applyMessageUpsert_ok {e : TelegramUpsert} (hs : FetchInv s) : EventOk s (applyMessageUpsert e s) := by
  unfold applyMessageUpsert
  cases hm : s.message with
  | none =>
    have hnew : ∀ m : MediaMessage, ∀ m', s.message = some m' → m.mediaURL = m'.mediaURL := by
      intro m m' hm'
      rw [hm] at hm'
      cases hm'
    cases e.file with
    | none => exact message_ok hs (hnew _)
    | some f => exact media_ok hs (hnew _)
  | some m =>
    have hkept : ∀ m', s.message = some m' → m.mediaURL = m'.mediaURL := by
      intro m' hm'
      rw [hm] at hm'
      obtain rfl := Option.some.inj hm'
      rfl
    dsimp only
    by_cases hlate : e.occurredAt < m.providerOccurredAt
    · rw [if_pos hlate]
      exact .refl hs
    · rw [if_neg hlate]
      cases e.file with
      | none => exact message_ok hs hkept
      | some f => exact media_ok hs hkept

/-! ### Steps of a fetch -/

/-- What a step of a fetch does: it leaves the attachment and the message alone, or the attachment is pending and the
lease is its own. -/
structure FetchStepOk (p : ℕ) (s : FetchDb) (x : FetchStage) (s' : FetchDb) (y : FetchStage) : Prop where
  inv : FetchInv s'
  stage : FetchOk s' p y
  leases : LeasesFrom s s'
  frame : (s'.attachment = s.attachment ∧ s'.message = s.message) ∨
    (∃ r, s.attachment = some r ∧ r.status = .pending) ∧ ∀ c, x.claim = some c → holdsLease c s = true

theorem pending_of_held (hs : FetchInv s) (h : holdsLease c s = true) : ∃ r, s.attachment = some r ∧ r.status = .pending := by
  obtain ⟨r, l, hr, hl, -⟩ := holdsLease_iff.mp h
  exact ⟨r, hr, (hs.leased r l hr hl).2⟩

theorem held_of_claim {x : FetchStage} (hx : x.claim = some c) (h : holdsLease c s = true) :
    ∀ c', x.claim = some c' → holdsLease c' s = true := by
  intro c' hc'
  rw [hx] at hc'
  obtain rfl := Option.some.inj hc'
  exact h

theorem FetchStepOk.quiet (hs' : FetchInv s') (hx : FetchOk s p x) (hattachment : s'.attachment = s.attachment)
    (hmessage : s'.message = s.message) (htoken : s'.nextToken = s.nextToken)
    (hy : y.claim = none ∨ y.claim = x.claim) : FetchStepOk p s x s' y := by
  have hl := LeasesFrom.of_eq hattachment htoken
  refine ⟨hs', fun c hc => ?_, hl, .inl ⟨hattachment, hmessage⟩⟩
  rcases hy with hy | hy
  · rw [hy] at hc
    cases hc
  · exact (hx c (hy ▸ hc)).keep hl

theorem inv_objects (next : ℕ) {deleted : List ℕ} (hs : FetchInv s) (h : ∀ o ∈ s.deleted, o ∈ deleted) :
    FetchInv { s with
      nextObject := next
      deleted := deleted } :=
  ⟨hs.leased, hs.bare, hs.mirrored, hs.message, fun o ho => (hs.settled o ho).imp id (h o), hs.unclaimed, hs.counted,
    hs.spent⟩

theorem store_ok {c : AttachmentClaim} {d : DownloadedFile} {object : ℕ} {outcome : StoreOutcome} (hs : FetchInv s)
    (hx : FetchOk s p (.uploaded c d object)) (h : storeFetched c d object s outcome = (s', y)) :
    FetchStepOk p s (.uploaded c d object) s' y := by
  have hc : FetchStage.claim (.uploaded c d object) = some c := rfl
  have hstages : ∀ {t : FetchDb}, LeasesFrom s t → FetchOk t p (.failing c false (some object)) := by
    rintro t hl c' hc'
    exact (hx c' hc').keep hl
  cases outcome with
  | done =>
    by_cases hheld : holdsLease c s = true
    · obtain ⟨hs', hstores, hl⟩ := storeObject_ok d object hs hheld
      simp only [storeFetched, if_pos hheld, Prod.mk.injEq] at h
      obtain ⟨rfl, rfl⟩ := h
      have hfinish : FetchInv (finish (some object) (storeObject c d object s)) :=
        finish_ok hs' fun o ho => .inl (Option.some.inj ho ▸ hstores)
      exact ⟨hfinish, fetchOk_idle, ⟨hl.token, hl.lease⟩,
        .inr ⟨pending_of_held hs hheld, held_of_claim hc hheld⟩⟩
    · simp only [storeFetched, if_neg hheld, Prod.mk.injEq] at h
      obtain ⟨rfl, rfl⟩ := h
      exact .quiet hs hx rfl rfl rfl (.inr rfl)
  | fails =>
    obtain ⟨rfl, rfl⟩ := Prod.mk.inj h
    exact .quiet hs hx rfl rfl rfl (.inr rfl)
  | lost =>
    by_cases hheld : holdsLease c s = true
    · obtain ⟨hs', -, hl⟩ := storeObject_ok d object hs hheld
      simp only [storeFetched, if_pos hheld, Prod.mk.injEq] at h
      obtain ⟨rfl, rfl⟩ := h
      exact ⟨hs', hstages hl, hl, .inr ⟨pending_of_held hs hheld, held_of_claim hc hheld⟩⟩
    · simp only [storeFetched, if_neg hheld, Prod.mk.injEq] at h
      obtain ⟨rfl, rfl⟩ := h
      exact .quiet hs hx rfl rfl rfl (.inr rfl)

theorem record_ok {c : AttachmentClaim} {permanent : Bool} {object : Option ℕ} {now : ℕ} {works : Bool}
    (hs : FetchInv s) (hx : FetchOk s p (.failing c permanent object))
    (hC : Tidy s (.failing c permanent object) (.record now works)) :
    FetchStepOk p s (.failing c permanent object)
      (finish object (if works then recordFailure now c permanent s else s)) .idle := by
  have hstored : ∀ o ∈ object, s.Stores o := hC
  cases works with
  | false =>
    exact .quiet (finish_ok hs fun o ho => .inl (hstored o ho)) hx rfl rfl rfl (.inl rfl)
  | true =>
    obtain ⟨hs', hl, hstores⟩ := recordFailure_ok now permanent hs (hx c rfl)
    have hfinish : FetchInv (finish object (recordFailure now c permanent s)) :=
      finish_ok hs' fun o ho => .inl (hstores o (hstored o ho))
    refine ⟨hfinish, fetchOk_idle, ⟨hl.token, hl.lease⟩, ?_⟩
    by_cases hheld : holdsLease c s = true
    · exact .inr ⟨pending_of_held hs hheld, held_of_claim rfl hheld⟩
    · rw [recordFailure_lost hheld]
      exact .inl ⟨rfl, rfl⟩

theorem fetchAct_ok (hs : FetchInv s) (hx : FetchOk s p x) (hC : Tidy s x a) (h : fetchAct p s x a = some (s', y)) :
    FetchStepOk p s x s' y := by
  cases a with
  | claim now =>
    cases x with
    | idle =>
      obtain ⟨r, id, hr, hpending, -, -⟩ := claimAttachment_some h
      obtain ⟨hs', hy, hl⟩ := claim_ok (p := p) hs hC h
      exact ⟨hs', hy, hl, .inr ⟨⟨r, hr, hpending⟩, fun c hc => by cases hc⟩⟩
    | _ => cases h
  | download d =>
    cases x with
    | claimed c =>
      obtain ⟨rfl, rfl⟩ := Prod.mk.inj (Option.some.inj h)
      exact .quiet hs hx rfl rfl rfl (.inr rfl)
    | _ => cases h
  | upload =>
    cases x with
    | downloaded c d =>
      obtain ⟨rfl, rfl⟩ := Prod.mk.inj (Option.some.inj h)
      exact .quiet (inv_objects (s.nextObject + 1) hs fun o ho => ho) hx rfl rfl rfl (.inr rfl)
    | _ => cases h
  | store outcome =>
    cases x with
    | uploaded c d object => exact store_ok hs hx (Option.some.inj h)
    | _ => cases h
  | deleteMedia =>
    cases x with
    | unstored c object =>
      obtain ⟨rfl, rfl⟩ := Prod.mk.inj (Option.some.inj h)
      have hdeleted := inv_objects s.nextObject hs fun o ho => List.mem_cons_of_mem object ho
      refine .quiet (finish_ok hdeleted fun o ho => .inr ?_) hx rfl rfl rfl (.inl rfl)
      obtain rfl := Option.some.inj ho
      exact List.mem_cons_self
    | _ => cases h
  | throw permanent =>
    cases x with
    | claimed c | downloaded c d =>
      obtain ⟨rfl, rfl⟩ := Prod.mk.inj (Option.some.inj h)
      exact .quiet hs hx rfl rfl rfl (.inr rfl)
    | _ => cases h
  | record now works =>
    cases x with
    | failing c permanent object =>
      obtain ⟨rfl, rfl⟩ := Prod.mk.inj (Option.some.inj h)
      exact record_ok hs hx hC
    | _ => cases h
  | crash =>
    cases x with
    | idle => cases h
    | _ =>
      obtain ⟨rfl, rfl⟩ := Prod.mk.inj (Option.some.inj h)
      exact .quiet hs hx rfl rfl rfl (.inl rfl)

/-! ### Runs -/

theorem FetchInv.claims_le (hs : FetchInv s) : s.claims ≤ maxFetchAttempts := by
  cases hr : s.attachment with
  | none =>
    rw [hs.unclaimed hr]
    exact Nat.zero_le _
  | some r =>
    obtain ⟨hle, hover⟩ := hs.counted r hr
    by_cases hmax : maxFetchAttempts < r.fetchAttempts
    · exact (hover hmax).trans (by decide)
    · omega

def FetchesOk : Calls FetchDb FetchStage → Prop := Holds FetchInv FetchOk

theorem fetches_act {t t' : Calls FetchDb FetchStage} (ht : FetchesOk t) (hC : TidyStep t (.act p a))
    (h : fetchSystem.step t (.act p a) = some t') : FetchesOk t' ∧ FetchSafe t (.act p a) t' := by
  obtain ⟨s', y, hact, rfl⟩ := Machine.step_act h
  obtain ⟨hs, hstages⟩ := ht
  have hstep : FetchStepOk p t.shared (t.calls p) s' y := fetchAct_ok hs (hstages p) hC hact
  refine ⟨Holds.set hstep.inv hstep.stage fun q _ c hc => (hstages q c hc).keep hstep.leases, ?_⟩
  refine ⟨?_, ?_, hstep.inv.mirrored, hstep.inv.settled, hstep.inv.claims_le⟩
  · rintro q b c hact hc htaken
    obtain ⟨rfl, rfl⟩ := CallAction.act.inj hact
    rcases hstep.frame with hsame | ⟨-, hheld⟩
    · exact hsame
    · exact absurd htaken (hs.not_takenOver (hheld c hc))
  · rintro q b r - hr havailable
    rcases hstep.frame with ⟨hsame, -⟩ | ⟨⟨r', hr', hpending⟩, -⟩
    · exact ⟨r, hsame.trans hr, havailable, rfl⟩
    · rw [hr] at hr'
      obtain rfl := Option.some.inj hr'
      rw [hpending] at havailable
      cases havailable

theorem fetches_env {t t' : Calls FetchDb FetchStage} {e : TelegramUpsert} (ht : FetchesOk t)
    (h : fetchSystem.step t (.env e) = some t') : FetchesOk t' ∧ FetchSafe t (.env e) t' := by
  obtain ⟨s', henv, rfl⟩ := Machine.step_env h
  obtain rfl := Option.some.inj henv
  obtain ⟨hs, hstages⟩ := ht
  have hevent : EventOk t.shared (applyMessageUpsert e t.shared) := applyMessageUpsert_ok hs
  refine ⟨⟨hevent.inv, fun q c hc => (hstages q c hc).keep hevent.leases⟩, ?_⟩
  refine ⟨?_, ?_, hevent.inv.mirrored, hevent.inv.settled, hevent.inv.claims_le⟩
  · rintro q b c hact
    cases hact
  · rintro q b r hact
    cases hact

theorem fetches_step (t : Calls FetchDb FetchStage) (a : CallAction FetchAction TelegramUpsert)
    (t' : Calls FetchDb FetchStage) (ht : FetchesOk t) (hC : TidyStep t a) (h : fetchSystem.step t a = some t') :
    FetchesOk t' ∧ FetchSafe t a t' := by
  cases a with
  | act p a => exact fetches_act ht hC h
  | env e => exact fetches_env ht h

def noMessage : FetchDb :=
  { message := none
    attachment := none
    nextObject := 0
    deleted := []
    nextToken := 0
    finished := []
    claims := 0 }

theorem noMessage_ok : FetchInv noMessage where
  leased _ _ hr := by cases hr
  bare _ hr := by cases hr
  mirrored _ hr := by cases hr
  message h := absurd rfl h
  settled _ ho := by cases ho
  unclaimed _ := rfl
  counted _ hr := by cases hr
  spent _ hr := by cases hr

/-- **Fetches neither overwrite nor leak** as long as they are tidy, for any number of replicas and any order of their
steps, crashes and redelivered events. -/
theorem attachment_fetches_settle (as : List (CallAction FetchAction TelegramUpsert))
    (hC : Meets fetchSystem.step TidyStep (Calls.start noMessage .idle) as) :
    Steps fetchSystem.step FetchSafe (Calls.start noMessage .idle) as :=
  steps_of_meets fetches_step (holds_start noMessage_ok fun _ => fetchOk_idle) hC

/-! ### Evaluation -/

instance (s : FetchDb) (x : FetchStage) : (a : FetchAction) → Decidable (Tidy s x a)
  | .claim _ => inferInstanceAs
      (Decidable (∀ r ∈ s.attachment, r.lease.isSome = true → r.fetchAttempts < maxFetchAttempts))
  | .record _ _ => inferInstanceAs (Decidable (∀ object ∈ x.leftover, s.Stores object))
  | .download _ | .upload | .store _ | .deleteMedia | .throw _ | .crash => .isTrue trivial

instance (t : Calls FetchDb FetchStage) : (a : CallAction FetchAction TelegramUpsert) → Decidable (TidyStep t a)
  | .act p a => inferInstanceAs (Decidable (Tidy t.shared (t.calls p) a))
  | .env _ => .isTrue trivial

def photo (occurredAt : ℕ) : TelegramUpsert := ⟨occurredAt, 100, some ⟨"file", none, none, some 20⟩⟩

/-- The lease of the first fetch runs out during its upload; the second stores its own object. -/
def takenOverRun : List (CallAction FetchAction TelegramUpsert) :=
  [.env (photo 10), .act 0 (.claim 100), .act 0 (.download ⟨none, 20⟩), .act 0 .upload, .act 1 (.claim 60101),
    .act 1 (.download ⟨none, 20⟩), .act 1 .upload, .act 1 (.store .lost), .env (photo 10), .act 1 (.record 60200 true),
    .act 0 (.store .done), .act 0 .deleteMedia]

theorem attachment_fetches_settle_taken_over :
    Steps fetchSystem.step FetchSafe (Calls.start noMessage .idle) takenOverRun :=
  attachment_fetches_settle _ (meets_of_check (by decide))

/-- The storing transaction fails after the upload. -/
def leakingRun : List (CallAction FetchAction TelegramUpsert) :=
  [.env (photo 10), .act 0 (.claim 100), .act 0 (.download ⟨none, 20⟩), .act 0 .upload, .act 0 (.store .fails)]

/-- Every fetch crashes, and the next one finds its lease expired. -/
def crashingRun : List (CallAction FetchAction TelegramUpsert) :=
  .env (photo 10) :: (List.range 6).flatMap fun n => [.act 0 (.claim (100 + 60001 * n)), .act 0 .crash]

/-- The failure record of the first leaves an object that is neither stored nor deleted, and a seventh claim follows the
second. -/
theorem attachment_fetches_leak :
    ¬ Steps fetchSystem.step FetchSafe (Calls.start noMessage .idle) (leakingRun ++ [.act 0 (.record 200 true)]) ∧
      ¬ Steps fetchSystem.step FetchSafe (Calls.start noMessage .idle) (crashingRun ++ [.act 0 (.claim 400000)]) := by
  constructor
  · intro hall
    have hrun : (runActions fetchSystem.step (Calls.start noMessage .idle) leakingRun).any (fun t =>
        (fetchSystem.step t (.act 0 (.record 200 true))).any fun t' =>
          decide (∃ o ∈ t'.shared.finished, ¬ t'.shared.Stores o ∧ o ∉ t'.shared.deleted)) = true := by decide +kernel
    obtain ⟨t, ht, hlast⟩ := (Option.any_eq_true _ _).mp hrun
    obtain ⟨t', ht', hleft⟩ := (Option.any_eq_true _ _).mp hlast
    obtain ⟨o, ho, hunstored, hkept⟩ := of_decide_eq_true hleft
    rcases (hall.last ht ht').settled o ho with hstored | hdeleted
    · exact hunstored hstored
    · exact hkept hdeleted
  · intro hall
    have hrun : (runActions fetchSystem.step (Calls.start noMessage .idle) crashingRun).any (fun t =>
        (fetchSystem.step t (.act 0 (.claim 400000))).any fun t' =>
          decide (maxFetchAttempts < t'.shared.claims)) = true := by decide +kernel
    obtain ⟨t, ht, hlast⟩ := (Option.any_eq_true _ _).mp hrun
    obtain ⟨t', ht', hmany⟩ := (Option.any_eq_true _ _).mp hlast
    exact absurd (hall.last ht ht').bounded (not_le.mpr (of_decide_eq_true hmany))

end TeamInbox.Media
