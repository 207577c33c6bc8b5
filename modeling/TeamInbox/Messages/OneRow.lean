import TeamInbox.Messages.Handlers

/-!
# TeamInbox.Messages.OneRow — one row for each WhatsApp message

An outbound message is stored under a pending id and known to WhatsApp under another.  Whatever renames the row
keeps it the only one of the two ids, and so does whatever finds the final id in place.  A message event that
comes before the rename does not look for the pending row: it inserts a second one, and every rename after it
violates the unique index.
-/

namespace TeamInbox.Messages

open Lib

section OneRow

variable (pending final : String)

/-- The row is the message's, under either of its ids. -/
def represents (r : MessageRow) : Bool := decide (r.messageId = pending) || decide (r.messageId = final)

def Concerns : MessageAction → Prop
  | .confirmation pendingMessageId messageId => pendingMessageId = pending ∧ messageId = final
  | .receipt messageId _ pendingMessageId =>
    messageId = final ∧ (pendingMessageId = none ∨ pendingMessageId = some pending)
  | .sendFailed pendingMessageId outcome messageId _ =>
    pendingMessageId = pending ∧ outcome = .unknown ∧ messageId = some final
  | .message _ messageId _ _ _ _ => messageId = final
  | _ => False

/-- The message is stored, and not yet under its final id. -/
structure StoredPending (s : MessageStore) : Prop where
  nodup : (s.rows.map (·.messageId)).Nodup
  pending : pending ∈ s.rows.map (·.messageId)
  final : final ∉ s.rows.map (·.messageId)

/-- No handler fails, and one row represents the message all the time. -/
def OneRow (s : MessageStore) (as : List MessageAction) : Prop :=
  Steps messageStep (fun s a _ => ∃ s', handle s a = .ok s') s as ∧
    Always messageStep (fun s => (s.rows.filter (represents pending final)).length = 1) s as

def AfterRename (s : MessageStore) : MessageAction → Prop
  | .message _ _ _ _ _ _ => pending ∉ s.rows.map (·.messageId)
  | _ => True

instance (s : MessageStore) (a : MessageAction) : Decidable (AfterRename pending s a) := by
  cases a <;> unfold AfterRename <;> infer_instance

/-- The ids are unique, and one row represents the message. -/
structure OneRowInv (s : MessageStore) : Prop where
  nodup : (s.rows.map (·.messageId)).Nodup
  single : ∃ r, s.rows.filter (represents pending final) = [r]

variable {pending final} {s s' : MessageStore}

theorem represents_iff {r : MessageRow} :
    represents pending final r = true ↔ r.messageId = pending ∨ r.messageId = final := by
  rw [represents, Bool.or_eq_true, decide_eq_true_eq, decide_eq_true_eq]

theorem OneRowInv.eq {r t : MessageRow} (h : s.rows.filter (represents pending final) = [r]) (ht : t ∈ s.rows)
    (hrep : represents pending final t = true) : t = r := by
  have hmem : t ∈ s.rows.filter (represents pending final) := List.mem_filter.mpr ⟨ht, hrep⟩
  rw [h] at hmem
  exact List.mem_singleton.mp hmem

theorem StoredPending.inv (h : StoredPending pending final s) : OneRowInv pending final s := by
  obtain ⟨r, hr, hid⟩ := List.mem_map.mp h.pending
  have hrep : represents pending final r = true := represents_iff.mpr (.inl hid)
  have huniq : ∀ t ∈ s.rows, represents pending final t = true → t = r := by
    intro t ht hrep
    rcases represents_iff.mp hrep with hpend | hfin
    · exact List.inj_on_of_nodup_map h.nodup ht hr (hpend.trans hid.symm)
    · exact absurd (List.mem_map.mpr ⟨t, ht, hfin⟩) h.final
  have hrows : (s.rows.filter (represents pending final)).Nodup := (List.Nodup.of_map _ h.nodup).filter _
  refine ⟨h.nodup, r, List.perm_singleton.mp ((List.perm_ext_iff_of_nodup hrows (List.nodup_singleton r)).mpr ?_)⟩
  intro t
  rw [List.mem_filter, List.mem_singleton]
  exact ⟨fun ht => huniq t ht.1 ht.2, fun ht => ht ▸ ⟨hr, hrep⟩⟩

theorem OneRowInv.update (hI : OneRowInv pending final s) {selects : MessageRow → Bool}
    {sets : MessageRow → MessageRow} (hsel : ∀ r, selects r = true → represents pending final r = true)
    (hset : ∀ r, selects r = true → represents pending final (sets r) = true) :
    ∃ s', s.update selects sets = .ok s' ∧ OneRowInv pending final s' := by
  obtain ⟨hnodup, r, hr⟩ := hI
  have hkeep : ∀ t, represents pending final (if selects t then sets t else t) = represents pending final t := by
    intro t
    split_ifs with h
    · rw [hset t h, hsel t h]
    · rfl
  have hout : ∀ t, represents pending final t = false → (if selects t then sets t else t) = t := by
    intro t ht
    refine if_neg fun h => ?_
    rw [hsel t h] at ht
    exact absurd ht.symm Bool.false_ne_true
  have hnodup' : ((s.rows.map fun t => if selects t then sets t else t).map (·.messageId)).Nodup := by
    rw [List.map_map]
    refine List.Nodup.map_on (fun t ht u hu heq => ?_) (List.Nodup.of_map _ hnodup)
    simp only [Function.comp_apply] at heq
    have hclass : represents pending final t = represents pending final u := by
      rw [← hkeep t, ← hkeep u, represents, represents, heq]
    by_cases hrep : represents pending final t = true
    · rw [OneRowInv.eq hr ht hrep, OneRowInv.eq hr hu (hclass ▸ hrep)]
    · rw [Bool.not_eq_true] at hrep
      rw [hout t hrep, hout u (hclass ▸ hrep)] at heq
      exact List.inj_on_of_nodup_map hnodup ht hu heq
  refine ⟨{ s with rows := s.rows.map fun t => if selects t then sets t else t }, ?_, hnodup', ?_⟩
  · simp only [MessageStore.update]
    rw [if_pos hnodup']
  · refine ⟨if selects r then sets r else r, ?_⟩
    show (s.rows.map _).filter _ = _
    rw [List.filter_map, show (represents pending final ∘ _) = represents pending final from funext hkeep, hr]
    rfl

theorem mem_receiptIds {dbStatus : MessageStatus} {messageId id : String} {pendingMessageId : Option String}
    (h : id ∈ receiptIds s dbStatus messageId pendingMessageId) : id = messageId ∨ pendingMessageId = some id := by
  unfold receiptIds at h
  split_ifs at h
  · exact .inl (List.mem_singleton.mp h)
  · rcases List.mem_cons.mp h with rfl | hmem
    · exact .inl rfl
    · exact .inr (Option.filter_eq_some_iff.mp (Option.mem_toList.mp hmem)).1

theorem OneRowInv.confirmation (hI : OneRowInv pending final s) :
    ∃ s', handleSendConfirmationEvent s pending final = .ok s' ∧ OneRowInv pending final s' := by
  refine OneRowInv.update (s := (s.note _ _).settle _) ⟨hI.nodup, hI.single⟩ (fun r hr => ?_) fun r _ => ?_
  · rw [confirmationSelects, decide_eq_true_eq, List.mem_cons, List.mem_singleton] at hr
    exact represents_iff.mpr hr
  · exact represents_iff.mpr (.inr rfl)

theorem OneRowInv.receipt (hI : OneRowInv pending final s) (type : String) {pendingMessageId : Option String}
    (hmap : pendingMessageId = none ∨ pendingMessageId = some pending) :
    ∃ s', handleReceiptEvent s final type pendingMessageId = .ok s' ∧ OneRowInv pending final s' := by
  unfold handleReceiptEvent
  cases mapReceiptStatus type with
  | none => exact ⟨s, rfl, hI⟩
  | some dbStatus =>
    refine OneRowInv.update (s := (s.note _ _).settle _) ⟨hI.nodup, hI.single⟩ (fun r hr => ?_) fun r _ => ?_
    · simp only [receiptAdvances, receiptAddresses, Bool.and_eq_true, decide_eq_true_eq] at hr
      rcases mem_receiptIds hr.1.1 with hid | hid
      · exact represents_iff.mpr (.inr hid)
      · rcases hmap with hnone | hsome
        · exact absurd (hnone ▸ hid) (Option.some_ne_none _).symm
        · exact represents_iff.mpr (.inl (Option.some.inj (hid.symm.trans hsome)))
    · exact represents_iff.mpr (.inr rfl)

theorem OneRowInv.unknown (hI : OneRowInv pending final s) (reason : String) :
    ∃ s', handleSendFailedEvent s pending .unknown (some final) reason = .ok s' ∧ OneRowInv pending final s' := by
  have hsel : ∀ r, unknownSelects pending r = true → r.messageId = pending := by
    intro r hr
    simp only [unknownSelects, Bool.and_eq_true, decide_eq_true_eq] at hr
    exact hr.1
  refine hI.update (fun r hr => represents_iff.mpr (.inl (hsel r hr))) fun r hr => represents_iff.mpr ?_
  -- an empty final id leaves the row under the pending one
  by_cases hempty : final = ""
  · refine .inl (Eq.trans ?_ (hsel r hr))
    simp [unknownSets, givenId, Option.filter_some, hempty]
  · refine .inr ?_
    simp [unknownSets, givenId, Option.filter_some, hempty]

theorem OneRowInv.message (hI : OneRowInv pending final s) (hrenamed : pending ∉ s.rows.map (·.messageId)) (id : ℕ)
    (fromMe : Bool) (status : Option MessageStatus) (isHistorySync : Bool) (metadata : IncomingMetadata) :
    ∃ s', handleMessageEvent s id final fromMe status isHistorySync metadata = .ok s' ∧
      OneRowInv pending final s' := by
  obtain ⟨r, hfilter⟩ := hI.single
  have hr : r ∈ s.rows.filter (represents pending final) := hfilter ▸ List.mem_singleton_self r
  obtain ⟨hmem, hrep⟩ := List.mem_filter.mp hr
  have hfinal : r.messageId = final := (represents_iff.mp hrep).resolve_left fun heq =>
    hrenamed (List.mem_map.mpr ⟨r, hmem, heq⟩)
  have hexists : (s.rows.any fun r => decide (r.messageId = final)) = true :=
    List.any_eq_true.mpr ⟨r, hmem, decide_eq_true hfinal⟩
  simp only [handleMessageEvent]
  rw [if_pos hexists]
  split_ifs
  · refine OneRowInv.update (s := s.note _ _) ⟨hI.nodup, hI.single⟩ (fun t ht => ?_) fun t ht => ?_
    · exact represents_iff.mpr (.inr (of_decide_eq_true ht))
    · exact represents_iff.mpr (.inr (of_decide_eq_true ht))
  · exact ⟨s, rfl, hI⟩

theorem OneRowInv.handle (hI : OneRowInv pending final s) {a : MessageAction} (ha : Concerns pending final a)
    (hC : AfterRename pending s a) : ∃ s', handle s a = .ok s' ∧ OneRowInv pending final s' := by
  cases a with
  | receipt messageId type pendingMessageId =>
    obtain ⟨rfl, hmap⟩ := ha
    exact hI.receipt type hmap
  | confirmation pendingMessageId messageId =>
    obtain ⟨rfl, rfl⟩ := ha
    exact hI.confirmation
  | sendFailed pendingMessageId outcome messageId reason =>
    obtain ⟨rfl, rfl, rfl⟩ := ha
    exact hI.unknown reason
  | message id messageId fromMe status isHistorySync metadata =>
    obtain rfl := ha
    exact hI.message hC id fromMe status isHistorySync metadata
  | create _ _ | exhausted _ | expire _ _ _ => exact ha.elim

theorem two_rows_of_early {a : MessageAction} (hne : pending ≠ final) (ha : Concerns pending final a)
    (hone : (s.rows.filter (represents pending final)).length = 1) (h : messageStep s a = some s')
    (hone' : (s'.rows.filter (represents pending final)).length = 1) : AfterRename pending s a := by
  cases a with
  | message id messageId fromMe status isHistorySync metadata =>
    obtain rfl := ha
    intro hpending
    obtain ⟨r, hr, hid⟩ := List.mem_map.mp hpending
    obtain ⟨only, honly⟩ := List.length_eq_one_iff.mp hone
    have hr_eq : r = only := OneRowInv.eq honly hr (represents_iff.mpr (.inl hid))
    have hmissing : ¬ (s.rows.any fun r => decide (r.messageId = messageId)) = true := by
      intro hexists
      obtain ⟨t, ht, htid⟩ := List.any_eq_true.mp hexists
      have htid : t.messageId = messageId := of_decide_eq_true htid
      have ht_eq : t = only := OneRowInv.eq honly ht (represents_iff.mpr (.inr htid))
      exact hne (hid.symm.trans ((congrArg (·.messageId) (hr_eq.trans ht_eq.symm)).trans htid))
    unfold messageStep at h
    split_ifs at h
    simp only [handle, handleMessageEvent] at h
    rw [if_neg hmissing] at h
    obtain rfl := Option.some.inj h
    have hnew : ∀ r : MessageRow, r.messageId = messageId → represents pending messageId r = true :=
      fun r hr => represents_iff.mpr (.inr hr)
    rw [List.filter_append, List.length_append, hone, List.filter_cons_of_pos (hnew _ rfl)] at hone'
    simp at hone'
  | receipt _ _ _ | confirmation _ _ | sendFailed _ _ _ _ | create _ _ | exhausted _ | expire _ _ _ => trivial

theorem one_row_per_message (hne : pending ≠ final) (hs : StoredPending pending final s) {as : List MessageAction}
    (has : ∀ a ∈ as, Concerns pending final a) :
    Meets messageStep (AfterRename pending) s as ↔ OneRow pending final s as := by
  have hconcerns : Meets messageStep (fun _ a => Concerns pending final a) s as := meets_of_actions has
  constructor
  · intro h
    have hstep : ∀ s a s', OneRowInv pending final s → AfterRename pending s a ∧ Concerns pending final a →
        messageStep s a = some s' → OneRowInv pending final s' ∧ ∃ s', handle s a = .ok s' := by
      intro s a s' hI hC hrun
      obtain ⟨s₁, hhandle, hI₁⟩ := hI.handle hC.2 hC.1
      unfold messageStep at hrun
      rw [hhandle] at hrun
      split_ifs at hrun
      obtain rfl := Option.some.inj hrun
      exact ⟨hI₁, s₁, hhandle⟩
    refine ⟨steps_of_meets hstep hs.inv (h.and hconcerns), ?_⟩
    have hrun : Always messageStep (OneRowInv pending final) s as :=
      always_of_meets (fun _ _ _ hI hC hrun => (hstep _ _ _ hI hC hrun).1) hs.inv (h.and hconcerns)
    refine hrun.mono fun s hI => ?_
    obtain ⟨r, hr⟩ := hI.single
    rw [hr]
    rfl
  · rintro ⟨-, hone⟩
    have h : Meets messageStep (fun s a => Concerns pending final a → AfterRename pending s a) s as :=
      meets_of_always (I := fun s => (s.rows.filter (represents pending final)).length = 1)
        (fun _ _ _ _ _ h => h) (fun _ _ _ hI hrun hone' ha => two_rows_of_early hne ha hI hrun hone') hone.start hone
    exact (h.and hconcerns).mono fun _ _ h => h.1 h.2

def storedMessage : MessageStore := ⟨[⟨1, "pending", true, some .pending, none⟩], [], []⟩

theorem storedPending_storedMessage : StoredPending "pending" "wa" storedMessage :=
  ⟨by decide, by decide, by decide⟩

/-- A receipt overtakes the confirmation, and a replay comes last. -/
theorem one_row_per_message_overtaken : OneRow "pending" "wa" storedMessage
    [.sendFailed "pending" .unknown (some "wa") "timed out", .receipt "wa" "" (some "pending"),
      .confirmation "pending" "wa",
      .message 2 "wa" true (some .read) true ⟨none, none, none, none, none, none, none⟩] :=
  (one_row_per_message (by decide) storedPending_storedMessage (by simp [Concerns])).mp
    (meets_of_check (by decide +kernel))

/-- The echo of another device arrives before the confirmation, which then violates the unique index. -/
theorem early_echo_splits_message : ¬ ∀ pending final s as, pending ≠ final → StoredPending pending final s →
    (∀ a ∈ as, Concerns pending final a) → OneRow pending final s as := by
  intro h
  obtain ⟨-, hone⟩ := h "pending" "wa" storedMessage
    [.message 2 "wa" true none false ⟨none, none, none, none, none, none, none⟩, .confirmation "pending" "wa"]
    (by decide) storedPending_storedMessage (by simp [Concerns])
  have hrun : (runActions messageStep storedMessage
      [.message 2 "wa" true none false ⟨none, none, none, none, none, none, none⟩, .confirmation "pending" "wa"]).map
      (fun s => (s.rows.filter (represents "pending" "wa")).length) = some 2 := by decide +kernel
  obtain ⟨s, hs, htwo⟩ := Option.map_eq_some_iff.mp hrun
  have hone : (s.rows.filter (represents "pending" "wa")).length = 1 :=
    always_iff_reached.mp hone _ [] s (List.append_nil _).symm hs
  omega

end OneRow

end TeamInbox.Messages
