import TeamInbox.Messages.Handlers

/-!
# TeamInbox.Messages.StatusRank — the status of a message never regresses

Every event does to each row one of two things: it leaves the rank of its status alone, or it raises it to the
rank that the event reports, if that is higher (`RowChange`).  So the rank of a row is at all times the highest
that was reported for it.  The markers of a failure are only written at rank 0; a receipt or a confirmation
takes them away, except when a receipt finds the status already where it wants it: the history replay that
brought it there has left the marker in place.
-/

namespace TeamInbox.Messages

open Lib

/-! ### Markers -/

theorem marked_of_find? {m m' : Metadata} (h : m.find? "error" = m'.find? "error") : m.marked = m'.marked := by
  rw [Metadata.marked, Metadata.marked, h]

theorem marked_empty : Metadata.marked .empty = false := rfl

theorem any_marked_nullIfEmpty (m : Metadata) : (nullIfEmpty m).any (·.marked) = m.marked := by
  unfold nullIfEmpty
  split_ifs with h
  · have hnone : m.find? "error" = none := by
      rw [← Option.not_isSome_iff_eq_none, ← Table.mem_keys, h]
      exact List.not_mem_nil
    rw [Metadata.marked, hnone]
    rfl
  · rfl

theorem find?_mergeEntries (m : Option Metadata) {entries : List (String × String)} {k : String}
    (h : k ∉ entries.map (·.1)) : (mergeEntries m entries).find? k = (m.getD .empty).find? k := by
  unfold mergeEntries
  generalize m.getD .empty = m₀
  induction entries generalizing m₀ with
  | nil => rfl
  | cons e entries ih =>
    rw [List.map_cons, List.mem_cons, not_or] at h
    rw [List.foldl_cons, ih h.2, Table.find?_put_ne _ _ h.1]

theorem error_not_mem_entries (m : IncomingMetadata) : "error" ∉ m.entries.map (·.1) := by
  intro h
  obtain ⟨e, he, hkey⟩ := List.mem_map.mp h
  obtain ⟨k, hk, hval⟩ := List.mem_filterMap.mp he
  obtain ⟨v, -, rfl⟩ := Option.map_eq_some_iff.mp hval
  have hkey : k.1 = "error" := hkey
  have hall : ∀ k ∈ [("protocolSenderJid", m.protocolSenderJid), ("groupMentions", m.groupMentions),
      ("mediaAlbumId", m.mediaAlbumId), ("mediaAlbumIndex", m.mediaAlbumIndex),
      ("mediaAlbumCount", m.mediaAlbumCount), ("fileName", m.fileName), ("contactCards", m.contactCards)],
      k.1 ≠ "error" := by simp
  exact hall k hk hkey

theorem marked_mergeEntries (m : Option Metadata) (data : IncomingMetadata) :
    (mergeEntries m data.entries).marked = m.any (·.marked) := by
  rw [marked_of_find? (find?_mergeEntries m (error_not_mem_entries data))]
  cases m with
  | none => exact marked_empty
  | some m => rfl

theorem any_marked_clearMarker (m : Option Metadata) : (clearMarker m).any (·.marked) = false := by
  cases m with
  | none => rfl
  | some m =>
    show (if m.marked then _ else some m).any (·.marked) = false
    split_ifs with h
    · rw [any_marked_nullIfEmpty]
      have hnone : ((((m.erase "error").erase "error_message").erase "failed_at").find? "error") = none := by
        simp [Table.find?_erase]
      rw [Metadata.marked, hnone]
      rfl
    · simpa using h

/-! ### Ranks -/

theorem rank_mergeStatus (old : Option MessageStatus) (new : MessageStatus) :
    (mergeStatus old new).rank = max ((old.map (·.rank)).getD 0) new.rank := by
  cases new <;> rcases old with _ | old <;> (try cases old) <;> rfl

theorem mapReceiptStatus_cases {type : String} {dbStatus : MessageStatus}
    (h : mapReceiptStatus type = some dbStatus) :
    dbStatus = .sent ∨ dbStatus = .delivered ∨ dbStatus = .read := by
  unfold mapReceiptStatus at h
  split_ifs at h <;> simp_all

theorem receiptAdvances_iff {dbStatus : MessageStatus}
    (h : dbStatus = .sent ∨ dbStatus = .delivered ∨ dbStatus = .read) (ids : List String) (r : MessageRow) :
    receiptAdvances dbStatus ids r = true ↔ receiptAddresses ids r = true ∧ r.rank < dbStatus.rank := by
  have hstatus : (r.status.all fun status => decide (status ∈ eligibleCurrentStatuses dbStatus)) = true ↔
      r.rank < dbStatus.rank := by
    unfold MessageRow.rank
    rcases r.status with _ | status
    · rcases h with rfl | rfl | rfl <;> simp [MessageStatus.rank]
    · rcases h with rfl | rfl | rfl <;> cases status <;> decide
  unfold receiptAdvances
  rw [Bool.and_eq_true, hstatus]

theorem one_le_rank {dbStatus : MessageStatus} (h : dbStatus = .sent ∨ dbStatus = .delivered ∨ dbStatus = .read) :
    1 ≤ dbStatus.rank := by
  rcases h with rfl | rfl | rfl <;> decide

def reportedRank (reported : List (ℕ × ℕ)) (id : ℕ) : ℕ :=
  reported.foldr (fun e rank => if e.1 = id then max e.2 rank else rank) 0

theorem reportedRank_cons (e : ℕ × ℕ) (reported : List (ℕ × ℕ)) (id : ℕ) :
    reportedRank (e :: reported) id = if e.1 = id then max e.2 (reportedRank reported id) else reportedRank reported id :=
  rfl

theorem reportedRank_max (reported : List (ℕ × ℕ)) (id : ℕ) :
    (reportedRank reported id = 0 ∨ (id, reportedRank reported id) ∈ reported) ∧
      ∀ rank, (id, rank) ∈ reported → rank ≤ reportedRank reported id := by
  induction reported with
  | nil => exact ⟨.inl rfl, fun _ h => absurd h List.not_mem_nil⟩
  | cons e reported ih =>
    obtain ⟨hmem, hle⟩ := ih
    rw [reportedRank_cons]
    split_ifs with he
    · subst he
      constructor
      · rcases le_total e.2 (reportedRank reported e.1) with h | h
        · rw [max_eq_right h]
          exact hmem.imp_right (List.mem_cons_of_mem e)
        · rw [max_eq_left h]
          exact .inr List.mem_cons_self
      · intro rank hrank
        rcases List.mem_cons.mp hrank with hrank | hrank
        · exact hrank ▸ le_max_left _ _
        · exact le_trans (hle rank hrank) (le_max_right _ _)
    · constructor
      · exact hmem.imp_right (List.mem_cons_of_mem e)
      · intro rank hrank
        rcases List.mem_cons.mp hrank with hrank | hrank
        · exact absurd (congrArg Prod.fst hrank).symm he
        · exact hle rank hrank

theorem reportedRank_of_not_mem {reported : List (ℕ × ℕ)} {id : ℕ} (h : id ∉ reported.map (·.1)) :
    reportedRank reported id = 0 := by
  rcases (reportedRank_max reported id).1 with h0 | hmem
  · exact h0
  · exact absurd (List.mem_map.mpr ⟨_, hmem, rfl⟩) h

theorem reportedRank_append (rows : List MessageRow) (rank : ℕ) (reported : List (ℕ × ℕ)) (id : ℕ) :
    reportedRank (rows.map (fun r => (r.id, rank)) ++ reported) id =
      if id ∈ rows.map (·.id) then max rank (reportedRank reported id) else reportedRank reported id := by
  induction rows with
  | nil => rfl
  | cons r rows ih =>
    rw [List.map_cons, List.cons_append, reportedRank_cons, ih]
    by_cases hr : r.id = id
    · have hmem : id ∈ (r :: rows).map (·.id) := List.mem_map.mpr ⟨r, List.mem_cons_self, hr⟩
      rw [if_pos hr, if_pos hmem]
      split_ifs <;> omega
    · have hiff : id ∈ (r :: rows).map (·.id) ↔ id ∈ rows.map (·.id) := by
        rw [List.map_cons, List.mem_cons]
        exact ⟨fun h => h.resolve_left (Ne.symm hr), .inr⟩
      rw [if_neg hr]
      simp only [hiff]

/-! ### What a step does to a row -/

/-- A receipt that finds a marker on its message has a status to advance there. -/
def ReceiptClears (s : MessageStore) : MessageAction → Prop
  | .receipt messageId type pendingMessageId => ∀ dbStatus ∈ mapReceiptStatus type, ∀ r ∈ s.rows,
      receiptAddresses (receiptIds s dbStatus messageId pendingMessageId) r = true → r.marked = true →
        r.rank < dbStatus.rank
  | _ => True

instance (s : MessageStore) : (a : MessageAction) → Decidable (ReceiptClears s a)
  | .receipt messageId type pendingMessageId => inferInstanceAs (Decidable (∀ dbStatus ∈ mapReceiptStatus type,
      ∀ r ∈ s.rows, receiptAddresses (receiptIds s dbStatus messageId pendingMessageId) r = true →
        r.marked = true → r.rank < dbStatus.rank))
  | .create .. | .confirmation .. | .sendFailed .. | .message .. | .exhausted _ | .expire .. => .isTrue trivial

structure Inserts (s s' : MessageStore) (r : MessageRow) : Prop where
  rows : s'.rows = s.rows ++ [r]
  reported : s'.reported = s.reported ∧ r.rank = 0 ∨ s'.reported = (r.id, r.rank) :: s.reported
  settled : s'.settled = s.settled

/-- The rows become `f` of themselves.  The event has reported `rank` for the `addressed` ones, as a receipt or a
confirmation if it `proves` that they were sent. -/
structure RowChange (s s' : MessageStore) (a : MessageAction) (f : MessageRow → MessageRow)
    (addressed : MessageRow → Bool) (rank : ℕ) (proves : Bool) : Prop where
  rows : s'.rows = s.rows.map f
  id : ∀ r, (f r).id = r.id
  reported : s'.reported = (s.rows.filter addressed).map (fun r => (r.id, rank)) ++ s.reported
  settled : s'.settled = if proves then (s.rows.filter addressed).map (·.id) ++ s.settled else s.settled
  merged : ∀ r, (f r).rank = if addressed r then max r.rank rank else r.rank
  /-- a marker that was not there is put on a message that nothing has proved to be sent -/
  marked : ∀ r, (f r).marked = true → r.marked = true ∨ (f r).rank = 0
  sent : proves = true → 1 ≤ rank
  cleared : ReceiptClears s a → proves = true → ∀ r ∈ s.rows, addressed r = true → (f r).marked = false

theorem update_ok {s s' : MessageStore} {selects : MessageRow → Bool} {sets : MessageRow → MessageRow}
    (h : s.update selects sets = .ok s') :
    s' = { s with rows := s.rows.map fun r => if selects r then sets r else r } ∧
      (s'.rows.map (·.messageId)).Nodup := by
  simp only [MessageStore.update] at h
  split_ifs at h with hnodup
  obtain rfl := Except.ok.inj h
  exact ⟨rfl, hnodup⟩

theorem RowChange.silent {s s' : MessageStore} {a : MessageAction} {selects : MessageRow → Bool}
    {sets : MessageRow → MessageRow} (h : s.update selects sets = .ok s') (hid : ∀ r, (sets r).id = r.id)
    (hrank : ∀ r, selects r = true → r.rank = 0 ∧ (sets r).rank = 0) :
    RowChange s s' a (fun r => if selects r then sets r else r) (fun _ => false) 0 false := by
  obtain ⟨rfl, -⟩ := update_ok h
  refine ⟨rfl, fun r => ?_, ?_, rfl, fun r => ?_, fun r hr => ?_, fun h => absurd h Bool.false_ne_true,
    fun _ h => absurd h Bool.false_ne_true⟩
  · split_ifs
    · exact hid r
    · rfl
  · simp
  · by_cases hsel : selects r = true
    · simp [hsel, hrank r hsel]
    · simp [hsel]
  · by_cases hsel : selects r = true
    · simp [hsel, hrank r hsel]
    · simp only [hsel, if_false, Bool.false_eq_true] at hr
      exact .inl hr

theorem unknownSelects_rank {pendingMessageId : String} {r : MessageRow}
    (h : unknownSelects pendingMessageId r = true) : r.rank = 0 := by
  simp only [unknownSelects, Bool.and_eq_true, Bool.or_eq_true, decide_eq_true_eq] at h
  rcases h.2 with hstatus | ⟨hstatus, -⟩ <;> rw [MessageRow.rank, hstatus] <;> rfl

theorem pendingSelects_rank {pendingMessageId : String} {r : MessageRow}
    (h : pendingSelects pendingMessageId r = true) : r.rank = 0 := by
  simp only [pendingSelects, Bool.and_eq_true, decide_eq_true_eq] at h
  rw [MessageRow.rank, h.2]
  rfl

theorem expireSelects_rank {id : ℕ} {r : MessageRow} (h : expireSelects id r = true) : r.rank = 0 := by
  simp only [expireSelects, Bool.and_eq_true, decide_eq_true_eq] at h
  rw [MessageRow.rank, h.1.1.2]
  rfl

theorem handleReceiptEvent_change {s s' : MessageStore} {messageId type : String} {pendingMessageId : Option String}
    (h : handleReceiptEvent s messageId type pendingMessageId = .ok s') :
    s' = s ∨ ∃ f addressed rank proves,
      RowChange s s' (.receipt messageId type pendingMessageId) f addressed rank proves := by
  unfold handleReceiptEvent at h
  cases htype : mapReceiptStatus type with
  | none =>
    rw [htype] at h
    exact .inl (Except.ok.inj h).symm
  | some dbStatus =>
    simp only [htype] at h
    generalize hids : receiptIds s dbStatus messageId pendingMessageId = ids at h
    have hdb := mapReceiptStatus_cases htype
    obtain ⟨rfl, -⟩ := update_ok h
    refine .inr ⟨_, receiptAddresses ids, dbStatus.rank, true, rfl, fun r => ?_, rfl, rfl, fun r => ?_, fun r hr => ?_,
      fun _ => one_le_rank hdb, fun hC _ r hr haddr => ?_⟩
    · split_ifs <;> rfl
    · by_cases hadv : receiptAdvances dbStatus ids r = true
      · obtain ⟨haddr, hlt⟩ := (receiptAdvances_iff hdb ids r).mp hadv
        rw [if_pos hadv, if_pos haddr, max_eq_right (Nat.le_of_lt hlt)]
        rfl
      · rw [if_neg hadv]
        split_ifs with haddr
        · have hle : dbStatus.rank ≤ r.rank := by
            by_contra hlt
            exact hadv ((receiptAdvances_iff hdb ids r).mpr ⟨haddr, by omega⟩)
          rw [max_eq_left hle]
        · rfl
    · split_ifs at hr with hadv
      · rw [MessageRow.marked, receiptSets, any_marked_clearMarker] at hr
        exact absurd hr Bool.false_ne_true
      · exact .inl hr
    · split_ifs with hadv
      · exact any_marked_clearMarker r.metadata
      · by_contra hmarked
        rw [Bool.not_eq_false] at hmarked
        have hlt : r.rank < dbStatus.rank := hC dbStatus htype r hr (hids ▸ haddr) hmarked
        exact hadv ((receiptAdvances_iff hdb ids r).mpr ⟨haddr, hlt⟩)

theorem rank_confirmationSets (messageId : String) (r : MessageRow) :
    (confirmationSets messageId r).rank = max r.rank MessageStatus.sent.rank := by
  unfold confirmationSets MessageRow.rank
  rcases r.status with _ | status
  · rfl
  · cases status <;> rfl

theorem handleSendConfirmationEvent_change {s s' : MessageStore} {pendingMessageId messageId : String}
    (h : handleSendConfirmationEvent s pendingMessageId messageId = .ok s') :
    ∃ f addressed rank proves, RowChange s s' (.confirmation pendingMessageId messageId) f addressed rank proves := by
  obtain ⟨rfl, -⟩ := update_ok h
  refine ⟨_, confirmationSelects pendingMessageId messageId, MessageStatus.sent.rank, true, rfl, fun r => ?_, rfl, rfl,
    fun r => ?_, fun r hr => ?_, fun _ => one_le_rank (.inl rfl), fun _ _ r _ haddr => ?_⟩
  · split_ifs <;> rfl
  · split_ifs
    · exact rank_confirmationSets messageId r
    · rfl
  · split_ifs at hr
    · rw [MessageRow.marked, confirmationSets, any_marked_clearMarker] at hr
      exact absurd hr Bool.false_ne_true
    · exact .inl hr
  · rw [if_pos haddr]
    exact any_marked_clearMarker r.metadata

theorem handleMessageEvent_change {s s' : MessageStore} {id : ℕ} {messageId : String} {fromMe : Bool}
    {status : Option MessageStatus} {isHistorySync : Bool} {metadata : IncomingMetadata}
    (h : handleMessageEvent s id messageId fromMe status isHistorySync metadata = .ok s') :
    s' = s ∨ (∃ r, r.id = id ∧ Inserts s s' r) ∨ ∃ f addressed rank proves,
      RowChange s s' (.message id messageId fromMe status isHistorySync metadata) f addressed rank proves := by
  simp only [handleMessageEvent] at h
  by_cases hexists : (s.rows.any fun r => decide (r.messageId = messageId)) = true
  · rw [if_pos hexists] at h
    split_ifs at h with hhistory
    · obtain ⟨rfl, -⟩ := update_ok h
      refine .inr (.inr ⟨_, fun r => decide (r.messageId = messageId), (eventStatus fromMe status).rank, false, rfl,
        fun r => ?_, rfl, rfl, fun r => ?_, fun r hr => ?_, fun h => absurd h Bool.false_ne_true,
        fun _ h => absurd h Bool.false_ne_true⟩)
      · split_ifs <;> rfl
      · split_ifs
        · exact rank_mergeStatus r.status (eventStatus fromMe status)
        · rfl
      · split_ifs at hr
        · rw [MessageRow.marked, historySets, any_marked_nullIfEmpty, marked_mergeEntries] at hr
          exact .inl hr
        · exact .inl hr
    · exact .inl (Except.ok.inj h).symm
  · rw [if_neg hexists] at h
    obtain rfl := Except.ok.inj h
    exact .inr (.inl ⟨_, rfl, rfl, .inr rfl, rfl⟩)

theorem messageStep_cases {s s' : MessageStore} {a : MessageAction} (h : messageStep s a = some s') :
    s' = s ∨ (∃ r, r.id ∉ s.rows.map (·.id) ∧ Inserts s s' r) ∨
      ∃ f addressed rank proves, RowChange s s' a f addressed rank proves := by
  unfold messageStep at h
  split_ifs at h with hfresh
  cases hhandle : handle s a with
  | error e =>
    rw [hhandle] at h
    exact .inl (Option.some.inj h).symm
  | ok s₁ =>
    rw [hhandle] at h
    obtain rfl := Option.some.inj h
    cases a with
    | create id pendingMessageId =>
      simp only [handle, MessageStore.insert] at hhandle
      split_ifs at hhandle
      obtain rfl := Except.ok.inj hhandle
      have hid : id ∉ s.rows.map (·.id) := by simpa [MessageAction.newRow] using hfresh
      exact .inr (.inl ⟨_, hid, rfl, .inl ⟨rfl, rfl⟩, rfl⟩)
    | receipt messageId type pendingMessageId => exact (handleReceiptEvent_change hhandle).imp_right .inr
    | confirmation pendingMessageId messageId => exact .inr (.inr (handleSendConfirmationEvent_change hhandle))
    | sendFailed pendingMessageId outcome messageId reason =>
      cases outcome with
      | failed =>
        exact .inr (.inr ⟨_, _, _, _, .silent hhandle (fun _ => rfl) fun r hr => ⟨pendingSelects_rank hr, rfl⟩⟩)
      | unknown =>
        exact .inr (.inr ⟨_, _, _, _, .silent hhandle (fun _ => rfl) fun r hr => ⟨unknownSelects_rank hr, rfl⟩⟩)
    | message id messageId fromMe status isHistorySync metadata =>
      have hid : id ∉ s.rows.map (·.id) := by simpa [MessageAction.newRow] using hfresh
      rcases handleMessageEvent_change hhandle with hsame | ⟨r, rfl, hins⟩ | hchange
      · exact .inl hsame
      · exact .inr (.inl ⟨r, hid, hins⟩)
      · exact .inr (.inr hchange)
    | exhausted pendingMessageId =>
      exact .inr (.inr ⟨_, _, _, _, .silent hhandle (fun _ => rfl) fun r hr => ⟨pendingSelects_rank hr, rfl⟩⟩)
    | expire id errorMessage failedAt =>
      exact .inr (.inr ⟨_, _, _, _, .silent hhandle (fun _ => rfl) fun r hr => ⟨expireSelects_rank hr, rfl⟩⟩)

/-! ### Runs -/

/-- The rank of every row is the highest reported for it. -/
structure StatusInv (s : MessageStore) : Prop where
  ids : (s.rows.map (·.id)).Nodup
  rank : ∀ r ∈ s.rows, r.rank = reportedRank s.reported r.id
  reported : ∀ id ∈ s.reported.map (·.1), id ∈ s.rows.map (·.id)
  settled : ∀ id ∈ s.settled, id ∈ s.rows.map (·.id)

/-- A message that is proved to be sent bears no marker. -/
def SettledInv (s : MessageStore) : Prop := ∀ r ∈ s.rows, r.id ∈ s.settled → 1 ≤ r.rank ∧ r.marked = false

theorem statusInv_empty : StatusInv .empty :=
  ⟨List.nodup_nil, fun _ h => absurd h List.not_mem_nil, fun _ h => absurd h List.not_mem_nil,
    fun _ h => absurd h List.not_mem_nil⟩

variable {s s' : MessageStore}

theorem StatusInv.insert {r : MessageRow} (hI : StatusInv s) (hfresh : r.id ∉ s.rows.map (·.id))
    (h : Inserts s s' r) : StatusInv s' := by
  have hnone : reportedRank s.reported r.id = 0 := reportedRank_of_not_mem fun hmem => hfresh (hI.reported r.id hmem)
  have hids : s'.rows.map (·.id) = s.rows.map (·.id) ++ [r.id] := by rw [h.rows, List.map_append]; rfl
  refine ⟨?_, fun t ht => ?_, fun id hid => ?_, fun id hid => ?_⟩
  · rw [hids, List.nodup_append_comm]
    exact List.nodup_cons.mpr ⟨hfresh, hI.ids⟩
  · rw [h.rows, List.mem_append, List.mem_singleton] at ht
    rcases ht with ht | rfl
    · have hne : r.id ≠ t.id := fun heq => hfresh (heq ▸ List.mem_map_of_mem ht)
      rw [hI.rank t ht]
      rcases h.reported with ⟨hrep, -⟩ | hrep
      · rw [hrep]
      · rw [hrep, reportedRank_cons, if_neg hne]
    · rcases h.reported with ⟨hrep, hzero⟩ | hrep
      · rw [hrep, hnone, hzero]
      · rw [hrep, reportedRank_cons, if_pos rfl, hnone, Nat.max_zero]
  · rw [hids, List.mem_append, List.mem_singleton]
    rcases h.reported with ⟨hrep, -⟩ | hrep
    · exact .inl (hI.reported id (hrep ▸ hid))
    · rw [hrep, List.map_cons, List.mem_cons] at hid
      exact hid.symm.imp_left (hI.reported id)
  · rw [hids, List.mem_append]
    exact .inl (hI.settled id (h.settled ▸ hid))

theorem StatusInv.mem_filter_iff (hI : StatusInv s) {addressed : MessageRow → Bool} {r : MessageRow}
    (hr : r ∈ s.rows) : r.id ∈ (s.rows.filter addressed).map (·.id) ↔ addressed r = true := by
  constructor
  · intro h
    obtain ⟨t, ht, hid⟩ := List.mem_map.mp h
    obtain ⟨ht, haddr⟩ := List.mem_filter.mp ht
    obtain rfl : t = r := List.inj_on_of_nodup_map hI.ids ht hr hid
    exact haddr
  · intro h
    exact List.mem_map_of_mem (List.mem_filter.mpr ⟨hr, h⟩)

section RowChange

variable {a : MessageAction} {f : MessageRow → MessageRow} {addressed : MessageRow → Bool} {rank : ℕ} {proves : Bool}

theorem RowChange.ids (h : RowChange s s' a f addressed rank proves) :
    s'.rows.map (·.id) = s.rows.map (·.id) := by
  rw [h.rows, List.map_map]
  exact List.map_congr_left fun r _ => h.id r

theorem StatusInv.change (hI : StatusInv s) (h : RowChange s s' a f addressed rank proves) : StatusInv s' := by
  have hsub : ∀ id ∈ (s.rows.filter addressed).map (·.id), id ∈ s.rows.map (·.id) := by
    intro id hid
    obtain ⟨r, hr, rfl⟩ := List.mem_map.mp hid
    exact List.mem_map_of_mem (List.mem_filter.mp hr).1
  refine ⟨h.ids ▸ hI.ids, fun t ht => ?_, fun id hid => ?_, fun id hid => ?_⟩
  · rw [h.rows] at ht
    obtain ⟨r, hr, rfl⟩ := List.mem_map.mp ht
    rw [h.merged, h.id, h.reported, reportedRank_append, ← hI.rank r hr]
    simp only [hI.mem_filter_iff hr, Nat.max_comm r.rank]
  · rw [h.reported, List.map_append, List.map_map, List.mem_append] at hid
    rw [h.ids]
    exact hid.elim (hsub id) (hI.reported id)
  · rw [h.ids]
    rw [h.settled] at hid
    split_ifs at hid
    · exact (List.mem_append.mp hid).elim (hsub id) (hI.settled id)
    · exact hI.settled id hid

theorem RowChange.rank_le (h : RowChange s s' a f addressed rank proves) (r : MessageRow) : r.rank ≤ (f r).rank := by
  rw [h.merged]
  split_ifs
  · exact le_max_left _ _
  · exact le_rfl

theorem SettledInv.change (hI : StatusInv s) (hsettled : SettledInv s) (hC : ReceiptClears s a)
    (h : RowChange s s' a f addressed rank proves) : SettledInv s' := by
  intro t ht hid
  rw [h.rows] at ht
  obtain ⟨r, hr, rfl⟩ := List.mem_map.mp ht
  rw [h.id, h.settled] at hid
  by_cases hnew : proves = true ∧ addressed r = true
  · obtain ⟨hproves, haddr⟩ := hnew
    constructor
    · rw [h.merged, if_pos haddr]
      exact le_trans (h.sent hproves) (le_max_right _ _)
    · exact h.cleared hC hproves r hr haddr
  · have hold : r.id ∈ s.settled := by
      split_ifs at hid with hproves
      · rcases List.mem_append.mp hid with hid | hid
        · exact absurd ⟨hproves, (hI.mem_filter_iff hr).mp hid⟩ hnew
        · exact hid
      · exact hid
    obtain ⟨hrank, hunmarked⟩ := hsettled r hr hold
    have hle : 1 ≤ (f r).rank := le_trans hrank (h.rank_le r)
    refine ⟨hle, ?_⟩
    by_contra hmarked
    rw [Bool.not_eq_false] at hmarked
    rcases h.marked r hmarked with hbefore | hzero
    · rw [hunmarked] at hbefore
      exact absurd hbefore Bool.false_ne_true
    · omega

end RowChange

theorem StatusInv.step {a : MessageAction} (hI : StatusInv s) (h : messageStep s a = some s') : StatusInv s' := by
  rcases messageStep_cases h with rfl | ⟨r, hfresh, hins⟩ | ⟨f, addressed, rank, proves, hchange⟩
  · exact hI
  · exact hI.insert hfresh hins
  · exact hI.change hchange

theorem SettledInv.step {a : MessageAction} (hI : StatusInv s) (hsettled : SettledInv s) (hC : ReceiptClears s a)
    (h : messageStep s a = some s') : SettledInv s' := by
  rcases messageStep_cases h with rfl | ⟨r, hfresh, hins⟩ | ⟨f, addressed, rank, proves, hchange⟩
  · exact hsettled
  · intro t ht hid
    rw [hins.settled] at hid
    rw [hins.rows, List.mem_append, List.mem_singleton] at ht
    rcases ht with ht | rfl
    · exact hsettled t ht hid
    · exact absurd (hI.settled t.id hid) hfresh
  · exact hsettled.change hI hC hchange

/-- Every message stays, with a status of at least the same rank. -/
def RanksKept (s s' : MessageStore) : Prop :=
  ∀ r ∈ s.rows, (∃ r' ∈ s'.rows, r'.id = r.id) ∧ ∀ r' ∈ s'.rows, r'.id = r.id → r.rank ≤ r'.rank

theorem RanksKept.of_subset (hI : StatusInv s') (h : ∀ r ∈ s.rows, r ∈ s'.rows) : RanksKept s s' := by
  intro r hr
  refine ⟨⟨r, h r hr, rfl⟩, fun r' hr' hid => ?_⟩
  obtain rfl : r' = r := List.inj_on_of_nodup_map hI.ids hr' (h r hr) hid
  exact le_rfl

theorem ranksKept_of_step {a : MessageAction} (hI : StatusInv s) (h : messageStep s a = some s') : RanksKept s s' := by
  have hI' : StatusInv s' := hI.step h
  rcases messageStep_cases h with rfl | ⟨r, -, hins⟩ | ⟨f, addressed, rank, proves, hchange⟩
  · exact .of_subset hI fun _ hr => hr
  · refine .of_subset hI' fun t ht => ?_
    rw [hins.rows]
    exact List.mem_append_left _ ht
  · intro r hr
    have hmem : f r ∈ s'.rows := hchange.rows ▸ List.mem_map_of_mem hr
    refine ⟨⟨f r, hmem, hchange.id r⟩, fun r' hr' hid => ?_⟩
    obtain rfl : r' = f r := List.inj_on_of_nodup_map hI'.ids hr' hmem (hid.trans (hchange.id r).symm)
    exact hchange.rank_le r

/-- Statuses never regress, each is the highest reported, and no message bears the marker of a failed send once a
receipt or a confirmation has been applied to it. -/
def StatusKept (as : List MessageAction) : Prop :=
  Steps messageStep (fun s _ s' => RanksKept s s') .empty as ∧
    Always messageStep (fun s => ∀ r ∈ s.rows, r.rank = reportedRank s.reported r.id) .empty as ∧
    Always messageStep (fun s => ∀ r ∈ s.rows, r.id ∈ s.settled → r.marked = false) .empty as

theorem ranks_follow_reports (as : List MessageAction) :
    Steps messageStep (fun s _ s' => RanksKept s s') .empty as ∧
      Always messageStep (fun s => ∀ r ∈ s.rows, r.rank = reportedRank s.reported r.id) .empty as := by
  have hmeets : Meets messageStep (fun _ _ => True) .empty as := meets_of_forall fun _ _ => trivial
  have hrun : Always messageStep StatusInv .empty as :=
    always_of_step (fun _ _ _ hI hstep => hI.step hstep) statusInv_empty as
  refine ⟨?_, hrun.mono fun _ hI => hI.rank⟩
  exact steps_of_meets (I := StatusInv) (fun _ _ _ hI _ hstep => ⟨hI.step hstep, ranksKept_of_step hI hstep⟩)
    statusInv_empty hmeets

theorem status_never_regresses (as : List MessageAction) (h : Meets messageStep ReceiptClears .empty as) :
    StatusKept as := by
  have hrun : Always messageStep (fun s => StatusInv s ∧ SettledInv s) .empty as :=
    always_of_meets (fun _ _ _ hI hC hstep => ⟨hI.1.step hstep, hI.2.step hI.1 hC hstep⟩)
      ⟨statusInv_empty, fun _ h => absurd h List.not_mem_nil⟩ h
  obtain ⟨hkept, hmax⟩ := ranks_follow_reports as
  exact ⟨hkept, hmax, hrun.mono fun _ hI r hr hid => (hI.2 r hr hid).2⟩

/-- A delivery receipt disproves the failure whose outcome was unknown. -/
theorem status_never_regresses_late_receipt : StatusKept
    [.create 1 "pending", .sendFailed "pending" .unknown (some "wa") "timed out", .receipt "wa" "" none,
      .receipt "wa" "sender" none, .confirmation "pending" "wa", .exhausted "pending"] :=
  status_never_regresses _ (meets_of_check (by decide +kernel))

/-- A history replay has already advanced the message, and left the marker. -/
theorem replayed_message_keeps_marker : ¬ ∀ as, StatusKept as := by
  intro h
  obtain ⟨-, -, hmarkers⟩ := h [.create 1 "pending", .sendFailed "pending" .unknown (some "wa") "timed out",
    .message 2 "wa" true (some .delivered) true ⟨none, none, none, none, none, none, none⟩, .receipt "wa" "" none]
  have hrun : (runActions messageStep .empty [.create 1 "pending",
      .sendFailed "pending" .unknown (some "wa") "timed out",
      .message 2 "wa" true (some .delivered) true ⟨none, none, none, none, none, none, none⟩,
      .receipt "wa" "" none]).map
      (fun s => s.rows.any fun r => decide (r.id ∈ s.settled) && r.marked) = some true := by decide +kernel
  obtain ⟨s, hs, hbad⟩ := Option.map_eq_some_iff.mp hrun
  have hclean := always_iff_reached.mp hmarkers _ [] s (List.append_nil _).symm hs
  obtain ⟨r, hr, hrbad⟩ := List.any_eq_true.mp hbad
  rw [Bool.and_eq_true, decide_eq_true_eq] at hrbad
  rw [hclean r hr hrbad.1] at hrbad
  exact absurd hrbad.2 Bool.false_ne_true

end TeamInbox.Messages
