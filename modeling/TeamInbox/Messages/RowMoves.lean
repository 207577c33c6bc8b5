import TeamInbox.Messages.StatusRank
import TeamInbox.Messages.LedgerCleanup

/-!
# TeamInbox.Messages.RowMoves — what any writer does to a stored message

An event does one of a few things to a row (`RowMove`), and so does a statement of the cleanup.  In whatever order
they come, a row keeps its message id until it is `Done`: until its status says that it was sent, or its metadata
names an error.  A row that is done stays so (`Later`).
-/

namespace TeamInbox.Messages

open Lib

open Worker (StoredCommandResult)

/-! ### Rows that are done -/

def HasError (m : Metadata) : Bool := (m.find? "error").isSome

def Done (r : MessageRow) : Prop := 1 ≤ r.rank ∨ r.metadata.any HasError = true

structure Later (r r' : MessageRow) : Prop where
  id : r'.id = r.id
  named : r'.messageId = r.messageId ∨ Done r'
  done : Done r → Done r'

theorem Later.refl (r : MessageRow) : Later r r := ⟨rfl, .inl rfl, fun h => h⟩

theorem Later.trans {r₁ r₂ r₃ : MessageRow} (h : Later r₁ r₂) (h' : Later r₂ r₃) : Later r₁ r₃ := by
  refine ⟨h'.id.trans h.id, ?_, fun hd => h'.done (h.done hd)⟩
  rcases h'.named with hsame | hdone
  · exact h.named.imp (fun heq => hsame.trans heq) h'.done
  · exact .inr hdone

def waits (r : MessageRow) : Bool := decide (r.status = some .pending) && r.fromMe && r.metadata.isNone

theorem not_done_of_waits {r : MessageRow} (h : waits r = true) : ¬ Done r := by
  simp only [waits, Bool.and_eq_true, decide_eq_true_eq, Option.isNone_iff_eq_none] at h
  obtain ⟨⟨hstatus, -⟩, hmetadata⟩ := h
  rintro (hrank | herror)
  · rw [MessageRow.rank, hstatus] at hrank
    exact absurd hrank (by decide)
  · rw [hmetadata] at herror
    exact absurd herror (by decide)

/-! ### Metadata -/

theorem any_hasError_nullIfEmpty (m : Metadata) : (nullIfEmpty m).any HasError = HasError m := by
  unfold nullIfEmpty
  split_ifs with h
  · have hnone : m.find? "error" = none := by
      rw [← Option.not_isSome_iff_eq_none, ← Table.mem_keys, h]
      exact List.not_mem_nil
    rw [HasError, hnone]
    rfl
  · rfl

theorem find?_error_mergeEntries (m : Option Metadata) (error : String) {entries : List (String × String)}
    (h : "error" ∉ entries.map (·.1)) : (mergeEntries m (("error", error) :: entries)).find? "error" = some error := by
  have hrest := find?_mergeEntries (some ((m.getD .empty).put "error" error)) h
  exact hrest.trans (Table.find?_put_self _ _ _)

theorem hasError_mergeEntries (m : Option Metadata) (error : String) {entries : List (String × String)}
    (h : "error" ∉ entries.map (·.1)) : HasError (mergeEntries m (("error", error) :: entries)) = true := by
  rw [HasError, find?_error_mergeEntries m error h]
  rfl

theorem hasError_incoming (m : Option Metadata) (data : IncomingMetadata) :
    HasError (mergeEntries m data.entries) = m.any HasError := by
  rw [HasError, find?_mergeEntries m (error_not_mem_entries data)]
  cases m with
  | none => rfl
  | some m => rfl

/-! ### Events -/

inductive RowMove : MessageAction → MessageRow → MessageRow → Prop
  | same (a : MessageAction) (r : MessageRow) : RowMove a r r
  | receipt {messageId type : String} {pendingMessageId : Option String} {dbStatus : MessageStatus} {r : MessageRow}
      (hdb : mapReceiptStatus type = some dbStatus)
      (hid : r.messageId = messageId ∨ ∃ p ∈ givenId pendingMessageId, r.messageId = p) :
      RowMove (.receipt messageId type pendingMessageId) r (receiptSets dbStatus messageId r)
  | confirmation {pendingMessageId messageId : String} {r : MessageRow}
      (hid : r.messageId = pendingMessageId ∨ r.messageId = messageId) :
      RowMove (.confirmation pendingMessageId messageId) r (confirmationSets messageId r)
  | unknown {pendingMessageId reason : String} {messageId : Option String} {r : MessageRow}
      (hsel : unknownSelects pendingMessageId r = true) :
      RowMove (.sendFailed pendingMessageId .unknown messageId reason) r (unknownSets messageId reason r)
  | failed {a : MessageAction} {r : MessageRow} (hpending : r.status = some .pending) : RowMove a r (failedSets r)
  | history {id : ℕ} {messageId : String} {fromMe : Bool} {status : Option MessageStatus}
      {metadata : IncomingMetadata} {r : MessageRow} (hid : r.messageId = messageId) :
      RowMove (.message id messageId fromMe status true metadata) r
        (historySets fromMe (eventStatus fromMe status) metadata r)

structure NewRow (s : MessageStore) (a : MessageAction) (r : MessageRow) : Prop where
  fresh : r.id ∉ s.rows.map (·.id)
  unused : r.messageId ∉ s.rows.map (·.messageId)
  event : ∃ fromMe status isHistorySync metadata,
    a = .message r.id r.messageId fromMe status isHistorySync metadata

theorem rowMove_ite {a : MessageAction} {selects : MessageRow → Bool} {sets : MessageRow → MessageRow}
    (h : ∀ r, selects r = true → RowMove a r (sets r)) (r : MessageRow) :
    RowMove a r (if selects r then sets r else r) := by
  split_ifs with hsel
  · exact h r hsel
  · exact .same a r

theorem status_of_pendingSelects {p : String} {r : MessageRow} (h : pendingSelects p r = true) :
    r.status = some .pending := by
  simp only [pendingSelects, Bool.and_eq_true, decide_eq_true_eq] at h
  exact h.2

theorem messageStep_rows {s s' : MessageStore} {a : MessageAction} (ha : a.reported = true)
    (h : messageStep s a = some s') :
    (∃ r, NewRow s a r ∧ s'.rows = s.rows ++ [r]) ∨
      ∃ f, s'.rows = s.rows.map f ∧ (∀ r, RowMove a r (f r)) ∧
        ((s.rows.map (·.messageId)).Nodup → (s'.rows.map (·.messageId)).Nodup) := by
  have hsame : ∀ {s'}, s' = s → ∃ f, s'.rows = s.rows.map f ∧ (∀ r, RowMove a r (f r)) ∧
      ((s.rows.map (·.messageId)).Nodup → (s'.rows.map (·.messageId)).Nodup) := fun hs =>
    ⟨id, by rw [hs, List.map_id], fun r => .same a r, fun hn => hs ▸ hn⟩
  unfold messageStep at h
  split_ifs at h with hfresh
  cases hhandle : handle s a with
  | error e =>
    rw [hhandle] at h
    exact .inr (hsame (Option.some.inj h).symm)
  | ok s₁ =>
    rw [hhandle] at h
    obtain rfl := Option.some.inj h
    -- every update keeps the ids unique, or fails
    have hupdate : ∀ {s₀ : MessageStore} {selects : MessageRow → Bool} {sets : MessageRow → MessageRow},
        s₀.update selects sets = .ok s₁ → s₀.rows = s.rows → (∀ r, selects r = true → RowMove a r (sets r)) →
        ∃ f, s₁.rows = s.rows.map f ∧ (∀ r, RowMove a r (f r)) ∧
          ((s.rows.map (·.messageId)).Nodup → (s₁.rows.map (·.messageId)).Nodup) := by
      intro s₀ selects sets hok hrows hmove
      obtain ⟨hs₁, hnodup⟩ := update_ok hok
      refine ⟨_, ?_, rowMove_ite hmove, fun _ => hnodup⟩
      rw [hs₁, ← hrows]
    cases a with
    | create id p => exact absurd ha Bool.false_ne_true
    | expire id errorMessage failedAt => exact absurd ha Bool.false_ne_true
    | receipt messageId type pendingMessageId =>
      simp only [handle, handleReceiptEvent] at hhandle
      cases htype : mapReceiptStatus type with
      | none =>
        simp only [htype] at hhandle
        exact .inr (hsame (Except.ok.inj hhandle).symm)
      | some dbStatus =>
        simp only [htype] at hhandle
        refine .inr (hupdate hhandle rfl fun r hr => .receipt htype ?_)
        have haddr := ((receiptAdvances_iff (mapReceiptStatus_cases htype) _ r).mp hr).1
        have hmem := of_decide_eq_true (Bool.and_eq_true_iff.mp haddr).1
        unfold receiptIds at hmem
        split_ifs at hmem with hany
        · exact .inl (List.mem_singleton.mp hmem)
        · rcases List.mem_cons.mp hmem with heq | hmem
          · exact .inl heq
          · exact .inr ⟨_, Option.mem_toList.mp hmem, rfl⟩
    | confirmation p m =>
      refine .inr (hupdate hhandle rfl fun r hr => .confirmation ?_)
      simpa [confirmationSelects] using hr
    | sendFailed p outcome m reason =>
      cases outcome with
      | failed => exact .inr (hupdate hhandle rfl fun r hr => .failed (status_of_pendingSelects hr))
      | unknown => exact .inr (hupdate hhandle rfl fun r hr => .unknown hr)
    | exhausted p => exact .inr (hupdate hhandle rfl fun r hr => .failed (status_of_pendingSelects hr))
    | message id m fromMe status isHistorySync metadata =>
      simp only [handle, handleMessageEvent] at hhandle
      by_cases hany : (s.rows.any fun r => decide (r.messageId = m)) = true
      · rw [if_pos hany] at hhandle
        cases isHistorySync with
        | false => exact .inr (hsame (Except.ok.inj hhandle).symm)
        | true => exact .inr (hupdate hhandle rfl fun r hr => .history (of_decide_eq_true hr))
      · rw [if_neg hany] at hhandle
        obtain rfl := Except.ok.inj hhandle
        refine .inl ⟨_, ⟨by simpa [MessageAction.newRow] using hfresh, fun hmem => hany ?_, _, _, _, _, rfl⟩, rfl⟩
        obtain ⟨r, hr, hid⟩ := List.mem_map.mp hmem
        exact List.any_eq_true.mpr ⟨r, hr, decide_eq_true hid⟩

theorem RowMove.later {a : MessageAction} {r r' : MessageRow} (h : RowMove a r r') : Later r r' := by
  cases h with
  | same => exact .refl r
  | @receipt messageId _ _ dbStatus r hdb hid =>
    have hrank : Done (receiptSets dbStatus messageId r) := .inl (one_le_rank (mapReceiptStatus_cases hdb))
    exact ⟨rfl, .inr hrank, fun _ => hrank⟩
  | @confirmation p m r hid =>
    have hrank : Done (confirmationSets m r) := by
      refine .inl ?_
      rw [rank_confirmationSets]
      exact le_max_right r.rank MessageStatus.sent.rank
    exact ⟨rfl, .inr hrank, fun _ => hrank⟩
  | @unknown p reason m r hsel =>
    have herror : Done (unknownSets m reason r) :=
      .inr (hasError_mergeEntries r.metadata sendOutcomeUnknown (by simp))
    exact ⟨rfl, .inr herror, fun _ => herror⟩
  | failed hpending =>
    refine ⟨rfl, .inl rfl, fun hd => hd.imp (fun hrank => ?_) id⟩
    rw [MessageRow.rank, hpending] at hrank
    exact absurd hrank (by decide)
  | history hid =>
    refine ⟨rfl, .inl rfl, fun hd => hd.imp (fun hrank => ?_) fun herror => ?_⟩
    · exact hrank.trans ((le_max_left _ _).trans (rank_mergeStatus _ _).ge)
    · show (nullIfEmpty _).any HasError = true
      rw [any_hasError_nullIfEmpty, hasError_incoming]
      exact herror

/-! ### The statements of the cleanup -/

theorem done_reconcileSets (o : StoredCommandResult) (failedAt : String) (r : MessageRow) :
    Done (reconcileSets o failedAt r) := by
  by_cases hfailed : o.failed = true
  · refine .inr ?_
    show Option.any HasError (if o.failed = true then _ else _) = true
    rw [if_pos hfailed]
    exact hasError_mergeEntries r.metadata "send_failed" (by simp)
  · refine .inl ?_
    show 1 ≤ ((some (if o.failed = true then MessageStatus.failed else .sent)).map (·.rank)).getD 0
    rw [if_neg hfailed]
    decide

theorem later_reconcileSets (o : StoredCommandResult) (failedAt : String) (r : MessageRow) :
    Later r (reconcileSets o failedAt r) :=
  ⟨rfl, .inr (done_reconcileSets o failedAt r), fun _ => done_reconcileSets o failedAt r⟩

theorem later_reconcileRow (batch : List OutcomeRow) (failedAt c : String) (r : MessageRow) :
    Later r (reconcileRow batch failedAt c r) := by
  unfold reconcileRow
  split
  · split_ifs
    · exact later_reconcileSets _ failedAt r
    · exact .refl r
  · exact .refl r

theorem later_expireSets (errorMessage failedAt : String) (r : MessageRow) :
    Later r (expireSets errorMessage failedAt r) := by
  have hdone : Done (expireSets errorMessage failedAt r) :=
    .inr (hasError_mergeEntries none deliveryTimeout (by simp))
  exact ⟨rfl, .inl rfl, fun _ => hdone⟩

theorem later_expireRow (companyId : String) (timestamp : ℕ → ℕ) (w : CleanupCycle) (seen : CompanyDb)
    (batch : List (String × ℕ)) (failedAt c : String) (r : MessageRow) :
    Later r (expireRow companyId timestamp w seen batch failedAt c r) := by
  unfold expireRow
  split_ifs
  · exact later_expireSets _ failedAt r
  · exact .refl r

/-! ### Tables -/

/-- The rows of one state of the tables, and what becomes of them. -/
def Since (s s' : CompanyDb) : Prop :=
  ∀ c, ∀ r ∈ (s.messages c).rows, ∃ r' ∈ (s'.messages c).rows, Later r r'

theorem Since.refl (s : CompanyDb) : Since s s := fun _ r hr => ⟨r, hr, .refl r⟩

theorem Since.trans {s₁ s₂ s₃ : CompanyDb} (h : Since s₁ s₂) (h' : Since s₂ s₃) : Since s₁ s₃ := by
  intro c r hr
  obtain ⟨r₂, hr₂, hl⟩ := h c r hr
  obtain ⟨r₃, hr₃, hl'⟩ := h' c r₂ hr₂
  exact ⟨r₃, hr₃, hl.trans hl'⟩

def IdsUnique (s : CompanyDb) : Prop := ∀ c, ((s.messages c).rows.map (·.id)).Nodup

/-- The rows become `f` of themselves. -/
structure Rewrites (s s' : CompanyDb) (f : String → MessageRow → MessageRow) : Prop where
  rows : ∀ c, (s'.messages c).rows = (s.messages c).rows.map (f c)
  outbox : s'.outbox = s.outbox
  ledgers : s'.ledgers = s.ledgers

theorem Rewrites.since {s s' : CompanyDb} {f : String → MessageRow → MessageRow} (h : Rewrites s s' f)
    (hlater : ∀ c, ∀ r, Later r (f c r)) : Since s s' := fun c r hr =>
  ⟨f c r, h.rows c ▸ List.mem_map_of_mem hr, hlater c r⟩

theorem Rewrites.idsUnique {s s' : CompanyDb} {f : String → MessageRow → MessageRow} (h : Rewrites s s' f)
    (hlater : ∀ c, ∀ r, Later r (f c r)) (hs : IdsUnique s) : IdsUnique s' := by
  intro c
  have hmap : (s'.messages c).rows.map (·.id) = (s.messages c).rows.map (·.id) := by
    rw [h.rows, List.map_map]
    exact List.map_congr_left fun r _ => (hlater c r).id
  rw [hmap]
  exact hs c

theorem rewrite_ok {connections : List String} {s s' : CompanyDb} {f : String → MessageRow → MessageRow}
    (h : s.rewrite connections f = .ok s') : Rewrites s s' f ∧
      ∀ c ∈ connections, ((s'.messages c).rows.map (·.messageId)).Nodup := by
  unfold CompanyDb.rewrite at h
  split_ifs at h with hnodup
  obtain rfl := Except.ok.inj h
  exact ⟨⟨fun _ => rfl, rfl, rfl⟩, hnodup⟩

end TeamInbox.Messages
