import TeamInbox.Connections.Purge

/-!
# TeamInbox.Connections.PurgeErases — a purge erases what belongs to its connection

Every statement of a purge takes away rows that belong to the connection and clears columns that point at such rows
(`Erasing`).
-/

namespace TeamInbox.Connections

open Lib Broadcast

/-! ### What a statement may change -/

open Column in
/-- The columns that are cleared when what they point at is deleted: the keys that are set to null, and those of the two
updates. -/
def pointers : Table → List (Column × Table)
  | .contacts => [(mergedIntoContactId, .contacts)]
  | .conversationCases => [(openingMessageId, .messages)]
  | .conversationStates => [(activeCaseId, .conversationCases)]
  | .messages =>
    [(senderParticipantId, .conversationParticipants), (replyToMessageId, .messages), (caseId, .conversationCases)]
  | .messageReactions => [(reactorEndpointId, .contactEndpoints)]
  | .messageParticipants | .conversationParticipants => [(contactEndpointId, .contactEndpoints)]
  | .messageDeliveryEvents => [(recipientEndpointId, .contactEndpoints)]
  | .contactEndpoints => [(contactId, .contacts)]
  | _ => []

theorem setNull_pointer : ∀ k ∈ foreignKeys, k.onDelete = .setNull → (k.column, k.parent) ∈ pointers k.table := by
  decide

/-- What the condition selects belongs to the connection. -/
def Selector.Owns (t : Table) : Selector → Prop
  | .self | .selfLinked _ => t = .whatsappConnections ∨ t = .channelAccounts
  | .account c => c ∈ accountColumns t
  | .part c parent => (c, parent) ∈ ownerColumns t

instance (t : Table) (s : Selector) : Decidable (s.Owns t) :=
  match s with
  | .self | .selfLinked _ => inferInstanceAs (Decidable (_ ∨ _))
  | .account _ => inferInstanceAs (Decidable (_ ∈ _))
  | .part _ _ => inferInstanceAs (Decidable (_ ∈ _))

def Statement.Owns : Statement → Prop
  | .delete t conditions => ∀ s ∈ conditions, s.Owns t
  | .clear t c parent => parent = .messages ∧ (c, parent) ∈ pointers t

instance (s : Statement) : Decidable s.Owns :=
  match s with
  | .delete t conditions => inferInstanceAs (Decidable (∀ s ∈ conditions, s.Owns t))
  | .clear _ _ _ => inferInstanceAs (Decidable (_ ∧ _))

theorem statements_own :
    (∀ s ∈ beforeMessages, s.Owns) ∧ (∀ s ∈ .delete .messages messageConditions :: beforeContacts, s.Owns) ∧
      ∀ s ∈ fromContacts, s.Owns := by decide

section Erasing

variable (connectionId now : ℕ) (before : List TenantRow) (base : TenantRow → RowData)

/-- A contact or a message of the connection, which the purge is going to delete. -/
def Doomed (r : TenantRow) : Prop :=
  (r.table = .contacts ∨ r.table = .messages) ∧ r.link .whatsappConnectionId = some connectionId

/-- The pointer was at a row of the connection that is gone, or is going to be. -/
def Cleared (rows : List TenantRow) (t : Table) (c : Column) (i : ℕ) : Prop :=
  ∃ p ∈ before, (c, p.table) ∈ pointers t ∧ p.id = i ∧ Belongs connectionId before p ∧
    (rowKey p ∉ rows.map rowKey ∨ Doomed connectionId p)

/-- The data of a row is `base`, and a contact that has been separated has a new `updated_at`. -/
def DataKept (r r' : TenantRow) : Prop :=
  r'.data = base r ∨ (r.table = .contacts ∧ r.link .mergedIntoContactId ≠ none ∧ r'.link .mergedIntoContactId = none ∧
    r'.data = { base r with updatedAt := now })

/-- What is left of the rows `before`. -/
structure Erasing (rows : List TenantRow) : Prop where
  keys : (rows.map rowKey).Nodup
  stays : ∀ r' ∈ rows, ∃ r ∈ before, Row.Keeps (Cleared connectionId before rows) r r' ∧ DataKept now base r r'
  erased : ∀ r ∈ before, rowKey r ∈ rows.map rowKey ∨ Belongs connectionId before r

variable {connectionId now before base} {rows rows' : List TenantRow}

theorem rowKey_keeps {why : Table → Column → ℕ → Prop} {r r' : TenantRow} (h : Row.Keeps why r r') : rowKey r' = rowKey r :=
  Prod.ext h.table h.id

theorem Cleared.mono (hle : ∀ k ∈ rows'.map rowKey, k ∈ rows.map rowKey) {t : Table} {c : Column} {i : ℕ}
    (h : Cleared connectionId before rows t c i) : Cleared connectionId before rows' t c i := by
  obtain ⟨p, hp, hpointer, hid, hbelongs, hgone⟩ := h
  exact ⟨p, hp, hpointer, hid, hbelongs, hgone.imp_left fun hnot hmem => hnot (hle _ hmem)⟩

theorem Erasing.rewrite (h : Erasing connectionId now before base rows) (f : TenantRow → TenantRow)
    (hkeeps : ∀ r ∈ rows, Row.Keeps (Cleared connectionId before rows) r (f r))
    (hdata : ∀ r ∈ rows, ∀ r0 ∈ before, Row.Keeps (Cleared connectionId before rows) r0 r → DataKept now base r0 r →
      DataKept now base r0 (f r)) : Erasing connectionId now before base (rows.map f) := by
  have hkeys : (rows.map f).map rowKey = rows.map rowKey := by
    rw [List.map_map]
    exact List.map_congr_left fun r hr => rowKey_keeps (hkeeps r hr)
  refine ⟨by rw [hkeys]; exact h.keys, fun r' hr' => ?_, fun r hr => ?_⟩
  · obtain ⟨r, hr, rfl⟩ := List.mem_map.mp hr'
    obtain ⟨r0, hr0, hk, hd⟩ := h.stays r hr
    refine ⟨r0, hr0, (hk.trans (hkeeps r hr)).mono fun t c i hc => ?_, hdata r hr r0 hr0 hk hd⟩
    exact hc.mono fun k hmem => hkeys ▸ hmem
  · rw [hkeys]
    exact h.erased r hr

/-- A row that came from one that belongs to the connection. -/
def BelongsNow (connectionId : ℕ) (before rows : List TenantRow) (r' : TenantRow) : Prop :=
  ∃ r ∈ before, Row.Keeps (Cleared connectionId before rows) r r' ∧ Belongs connectionId before r

theorem Erasing.belongs_cascade (h : Erasing connectionId now before base rows) {r q : TenantRow} (hr : r ∈ rows)
    (hq : BelongsNow connectionId before rows q) {k : ForeignKey Table Column} (hk : k ∈ foreignKeys)
    (haction : k.onDelete = .cascade) (hrefers : k.refers r q = true) : BelongsNow connectionId before rows r := by
  obtain ⟨q0, hq0, hkq, hbelongs⟩ := hq
  obtain ⟨r0, hr0, hkr, -⟩ := h.stays r hr
  obtain ⟨htable, hparent, hlink⟩ := ForeignKey.refers_iff.mp hrefers
  refine ⟨r0, hr0, hkr, hbelongs.cascade hq0 hk haction (ForeignKey.refers_iff.mpr ⟨?_, ?_, ?_⟩)⟩
  · exact hkr.table.symm.trans htable
  · exact hkq.table.symm.trans hparent
  · rw [hkr.link_some hlink, hkq.id]

theorem mem_idsLinked {t : Table} {c : Column} {i : ℕ} :
    i ∈ idsLinked connectionId rows t c ↔ ∃ r ∈ rows, r.table = t ∧ r.link c = some connectionId ∧ r.id = i := by
  unfold idsLinked
  simp only [List.mem_map, List.mem_filter, Bool.and_eq_true, decide_eq_true_eq, beq_iff_eq, and_assoc]

theorem mem_groupIds {i : ℕ} : i ∈ groupIds connectionId rows ↔
    ∃ r ∈ rows, r.table = .groups ∧ (∃ contact ∈ contactIds connectionId rows, r.link .contactId = some contact) ∧ r.id = i := by
  unfold groupIds
  simp only [List.mem_map, List.mem_filter, Bool.and_eq_true, decide_eq_true_eq, Option.any_eq_true, List.contains_iff_mem,
    and_assoc]
  refine exists_congr fun r => and_congr_right fun _ => and_congr_right fun _ => and_congr_left fun _ => ?_
  exact exists_congr fun c => and_comm

theorem Erasing.linked (h : Erasing connectionId now before base rows) {t : Table} {c : Column}
    (hc : c ∈ accountColumns t) {i : ℕ} (hi : i ∈ idsLinked connectionId rows t c) :
    ∃ p ∈ before, p.table = t ∧ p.id = i ∧ p.link c = some connectionId ∧ Belongs connectionId before p := by
  obtain ⟨r, hr, rfl, hlink, rfl⟩ := mem_idsLinked.mp hi
  obtain ⟨p, hp, hkeep, -⟩ := h.stays r hr
  have hpc := hkeep.link_some hlink
  rw [hkeep.table] at hc
  exact ⟨p, hp, hkeep.table.symm, hkeep.id.symm, hpc, .account hc hpc⟩

theorem Erasing.owned (h : Erasing connectionId now before base rows) {t : Table} {i : ℕ}
    (hi : i ∈ ownedIds connectionId rows t) : ∃ p ∈ before, p.table = t ∧ p.id = i ∧ Belongs connectionId before p := by
  have hlinked : ∀ {c : Column}, c ∈ accountColumns t → i ∈ idsLinked connectionId rows t c →
      ∃ p ∈ before, p.table = t ∧ p.id = i ∧ Belongs connectionId before p := by
    intro c hc hmem
    obtain ⟨p, hp, htable, hid, -, hbelongs⟩ := h.linked hc hmem
    exact ⟨p, hp, htable, hid, hbelongs⟩
  cases t with
  | contacts => exact hlinked (by decide) hi
  | messages => exact hlinked (c := .whatsappConnectionId) (by decide) hi
  | contactEndpoints => exact hlinked (by decide) hi
  | groups =>
    obtain ⟨r, hr, htable, ⟨contact, hcontact, hlink⟩, rfl⟩ := mem_groupIds.mp hi
    obtain ⟨p, hp, hptable, hpid, -, hbelongs⟩ := h.linked (t := .contacts) (by decide) hcontact
    obtain ⟨r0, hr0, hkeep, -⟩ := h.stays r hr
    refine ⟨r0, hr0, hkeep.table.symm.trans htable, hkeep.id.symm, .part (c := .contactId) ?_ hp ?_ hbelongs⟩
    · rw [hptable, ← hkeep.table, htable]
      decide
    · rw [hpid]
      exact hkeep.link_some hlink
  | _ => exact absurd hi List.not_mem_nil

theorem Erasing.selected_belongs (h : Erasing connectionId now before base rows) {t : Table} {conditions : List Selector}
    (howns : ∀ s ∈ conditions, s.Owns t) {r : TenantRow} (hr : r ∈ rows)
    (hselected : selected connectionId t conditions rows r = true) : BelongsNow connectionId before rows r := by
  unfold selected at hselected
  obtain ⟨htable, hany⟩ := Bool.and_eq_true_iff.mp hselected
  obtain ⟨s, hs, hselects⟩ := List.any_eq_true.mp hany
  obtain ⟨r0, hr0, hkeep, -⟩ := h.stays r hr
  have ht : r0.table = t := hkeep.table.symm.trans (of_decide_eq_true htable)
  have hown := howns s hs
  rw [← ht] at hown
  refine ⟨r0, hr0, hkeep, ?_⟩
  cases s with
  | self => exact .root hown (hkeep.id.symm.trans (of_decide_eq_true hselects))
  | selfLinked c =>
    obtain ⟨hid, -⟩ := Bool.and_eq_true_iff.mp hselects
    exact .root hown (hkeep.id.symm.trans (of_decide_eq_true hid))
  | account c => exact .account hown (hkeep.link_some (beq_iff_eq.mp hselects))
  | part c parent =>
    obtain ⟨i, hi, hmem⟩ := (Option.any_eq_true _ _).mp hselects
    obtain ⟨p, hp, rfl, hid, hbelongs⟩ := h.owned (List.contains_iff_mem.mp hmem)
    refine .part hown hp ?_ hbelongs
    rw [hid]
    exact hkeep.link_some hi

theorem eq_of_key (hkeys : (before.map rowKey).Nodup) {r r' : TenantRow} (hr : r ∈ before) (hr' : r' ∈ before)
    (h : rowKey r = rowKey r') : r = r' := List.inj_on_of_nodup_map hkeys hr hr' h

theorem keeps_clear (fallen : List TenantRow) (r : TenantRow) :
    Row.Keeps (fun _ _ _ => True) r (clearKeys foreignKeys fallen r) :=
  keeps_clearKeys foreignKeys (fun _ _ _ _ _ _ => trivial) r

theorem Erasing.delete (hkeys : (before.map rowKey).Nodup) (h : Erasing connectionId now before base rows) {t : Table}
    {conditions : List Selector} (howns : ∀ s ∈ conditions, s.Owns t)
    (hdelete : deleteWhere foreignKeys (selected connectionId t conditions rows) rows = some rows') :
    Erasing connectionId now before base rows' := by
  obtain ⟨fallen, live, hperm, hfallen, hlive, rfl⟩ := deleteWhere_spec hdelete
    (fun r hr hsel => h.selected_belongs howns hr hsel)
    fun r hr q _ hq k hk haction hrefers => h.belongs_cascade hr hq hk haction hrefers
  have hlivekeys : (live.map (clearKeys foreignKeys fallen)).map rowKey = live.map rowKey := by
    rw [List.map_map]
    exact List.map_congr_left fun r _ => rowKey_keeps (keeps_clear fallen r)
  have hsplit : (fallen.map rowKey ++ live.map rowKey).Nodup := by
    rw [← List.map_append]
    exact (hperm.map rowKey).nodup_iff.mpr h.keys
  obtain ⟨-, hnodup, hdisjoint⟩ := List.nodup_append.mp hsplit
  have hsub : ∀ k ∈ (live.map (clearKeys foreignKeys fallen)).map rowKey, k ∈ rows.map rowKey := by
    intro k hk
    rw [hlivekeys] at hk
    obtain ⟨r, hr, rfl⟩ := List.mem_map.mp hk
    exact List.mem_map_of_mem (hlive r hr).1
  -- A key that is set to null pointed at a fallen row, which is gone and belongs to the connection.
  have hclear : ∀ r : TenantRow, Row.Keeps (Cleared connectionId before (live.map (clearKeys foreignKeys fallen))) r
      (clearKeys foreignKeys fallen r) := by
    refine fun r => keeps_clearKeys foreignKeys (fun k hk haction p hp hparent => ?_) r
    obtain ⟨p0, hp0, hkp, hbelongs⟩ := (hfallen p hp).2
    refine ⟨p0, hp0, ?_, hkp.id.symm, hbelongs, .inl ?_⟩
    · rw [← hkp.table, ← hparent]
      exact setNull_pointer k hk haction
    · rw [← rowKey_keeps hkp, hlivekeys]
      exact fun hmem => hdisjoint _ (List.mem_map_of_mem hp) _ hmem rfl
  refine ⟨by rw [hlivekeys]; exact hnodup, fun r' hr' => ?_, fun r hr => ?_⟩
  · obtain ⟨r, hr, rfl⟩ := List.mem_map.mp hr'
    obtain ⟨r0, hr0, hk, hd⟩ := h.stays r (hlive r hr).1
    have hk' := (hk.mono fun t c i hc => hc.mono hsub).trans (hclear r)
    refine ⟨r0, hr0, hk', ?_⟩
    rcases hd with hd | ⟨htable, hmerged, hnone, hd⟩
    · exact .inl ((data_clearKeys foreignKeys r).trans hd)
    · refine .inr ⟨htable, hmerged, ?_, (data_clearKeys foreignKeys r).trans hd⟩
      rcases (hclear r).link .mergedIntoContactId with heq | ⟨heq, -⟩
      · exact heq.trans hnone
      · exact heq
  · rcases h.erased r hr with hmem | hbelongs
    · obtain ⟨r', hr', hkey⟩ := List.mem_map.mp hmem
      rcases List.mem_append.mp (hperm.mem_iff.mpr hr') with hfall | hstay
      · obtain ⟨r0, hr0, hk, hbelongs⟩ := (hfallen r' hfall).2
        obtain rfl : r0 = r := eq_of_key hkeys hr0 hr ((rowKey_keeps hk).symm.trans hkey)
        exact .inr hbelongs
      · rw [hlivekeys, ← hkey]
        exact .inl (List.mem_map_of_mem hstay)
    · exact .inr hbelongs

theorem Erasing.clearing (h : Erasing connectionId now before base rows) {t : Table} {c : Column} {parent : Table}
    (hdoomed : parent = .messages ∨ parent = .contacts) (hpointer : (c, parent) ∈ pointers t) {r : TenantRow}
    (ht : r.table = t) (hany : (r.link c).any (ownedIds connectionId rows parent).contains = true) :
    Row.Keeps (Cleared connectionId before rows) r (r.clear c) := by
  obtain ⟨i, hi, hmem⟩ := (Option.any_eq_true _ _).mp hany
  refine .clear fun j hj => ?_
  obtain rfl : i = j := Option.some.inj (hi.symm.trans hj)
  rw [ht]
  rcases hdoomed with rfl | rfl
  · obtain ⟨p, hp, htable, hid, hlink, hbelongs⟩ := h.linked (by decide) (List.contains_iff_mem.mp hmem)
    exact ⟨p, hp, htable ▸ hpointer, hid, hbelongs, .inr ⟨.inr htable, hlink⟩⟩
  · obtain ⟨p, hp, htable, hid, hlink, hbelongs⟩ := h.linked (by decide) (List.contains_iff_mem.mp hmem)
    exact ⟨p, hp, htable ▸ hpointer, hid, hbelongs, .inr ⟨.inl htable, hlink⟩⟩

theorem DataKept.clear {r r' : TenantRow} (c : Column) (h : DataKept now base r r') : DataKept now base r (r'.clear c) := by
  rcases h with hd | ⟨htable, hmerged, hnone, hd⟩
  · exact .inl hd
  · refine .inr ⟨htable, hmerged, ?_, hd⟩
    by_cases hc : Column.mergedIntoContactId = c
    · rw [← hc]
      exact Row.link_clear_self _ r'
    · exact (Row.link_clear_of_ne hc r').trans hnone

theorem run_delete {t : Table} {conditions : List Selector}
    (hrun : (Statement.delete t conditions).run connectionId rows = .ok rows') :
    deleteWhere foreignKeys (selected connectionId t conditions rows) rows = some rows' := by
  unfold Statement.run at hrun
  dsimp only at hrun
  cases hdelete : deleteWhere foreignKeys (selected connectionId t conditions rows) rows with
  | none =>
    rw [hdelete] at hrun
    cases hrun
  | some after =>
    rw [hdelete] at hrun
    cases hrun
    rfl

theorem runAll_cons {s : Statement} {statements : List Statement}
    (hrun : runAll connectionId (s :: statements) rows = .ok rows') :
    ∃ middle, s.run connectionId rows = .ok middle ∧ runAll connectionId statements middle = .ok rows' := by
  unfold Connections.runAll at hrun
  rw [List.foldlM_cons] at hrun
  cases hfirst : s.run connectionId rows with
  | error e =>
    rw [hfirst] at hrun
    cases hrun
  | ok middle =>
    rw [hfirst] at hrun
    exact ⟨middle, rfl, hrun⟩

theorem Erasing.run (hkeys : (before.map rowKey).Nodup) (h : Erasing connectionId now before base rows) {s : Statement}
    (howns : s.Owns) (hrun : s.run connectionId rows = .ok rows') : Erasing connectionId now before base rows' := by
  cases s with
  | delete t conditions => exact h.delete hkeys howns (run_delete hrun)
  | clear t c parent =>
    cases hrun
    refine h.rewrite _ (fun r hr => ?_) fun r hr r0 hr0 hk hd => ?_
    · split
      · next hcond =>
        obtain ⟨ht, hany⟩ := Bool.and_eq_true_iff.mp hcond
        exact h.clearing (.inl howns.1) howns.2 (of_decide_eq_true ht) hany
      · exact .refl r
    · split
      · exact hd.clear c
      · exact hd

theorem Erasing.runAll (hkeys : (before.map rowKey).Nodup) {statements : List Statement} (howns : ∀ s ∈ statements, s.Owns)
    (h : Erasing connectionId now before base rows) (hrun : runAll connectionId statements rows = .ok rows') :
    Erasing connectionId now before base rows' := by
  induction statements generalizing rows with
  | nil =>
    cases hrun
    exact h
  | cons s statements ih =>
    obtain ⟨middle, hfirst, hrest⟩ := runAll_cons hrun
    obtain ⟨hs, hstatements⟩ := List.forall_mem_cons.mp howns
    exact ih hstatements (h.run hkeys hs hfirst) hrest

theorem isSeparated_iff {r : TenantRow} : isSeparated connectionId rows r = true ↔ r.table = .contacts ∧
    (r.link .mergedIntoContactId).any (contactIds connectionId rows).contains = true ∧
    r.link .whatsappConnectionId ≠ some connectionId := by
  unfold isSeparated
  simp only [Bool.and_eq_true, decide_eq_true_eq, Bool.not_eq_true', beq_eq_false_iff_ne, and_assoc]

theorem Erasing.separateContacts (h : Erasing connectionId now before base rows) :
    Erasing connectionId now before base (separateContacts connectionId now rows) := by
  refine h.rewrite _ (fun r hr => ?_) fun r hr r0 hr0 hk hd => ?_
  · split
    · next hsep =>
      obtain ⟨ht, hany, -⟩ := isSeparated_iff.mp hsep
      have hkeep := h.clearing (t := .contacts) (.inr rfl) (by decide) ht hany
      exact ⟨hkeep.table, hkeep.id, hkeep.link⟩
    · exact .refl r
  · split
    · next hsep =>
      obtain ⟨ht, hany, -⟩ := isSeparated_iff.mp hsep
      obtain ⟨i, hi, -⟩ := (Option.any_eq_true _ _).mp hany
      refine .inr ⟨hk.table.symm.trans ht, ?_, Row.link_clear_self Column.mergedIntoContactId r, ?_⟩
      · rw [hk.link_some hi]
        exact Option.some_ne_none i
      · rcases hd with hd | ⟨-, -, -, hd⟩
        · exact congrArg (fun d : RowData => { d with updatedAt := now }) hd
        · exact congrArg (fun d : RowData => { d with updatedAt := now }) hd
    · exact hd

/-! ### What is gone at the end -/

/-- No row of the table names the connection in the column. -/
def NoneLinked (connectionId : ℕ) (t : Table) (c : Column) (rows : List TenantRow) : Prop :=
  ∀ r ∈ rows, r.table = t → r.link c ≠ some connectionId

theorem NoneLinked.keeps {t : Table} {c : Column} (h : NoneLinked connectionId t c rows)
    (hfrom : ∀ r' ∈ rows', ∃ r ∈ rows, Row.Keeps (fun _ _ _ => True) r r') : NoneLinked connectionId t c rows' := by
  intro r' hr' ht hlink
  obtain ⟨r, hr, hkeep⟩ := hfrom r' hr'
  exact h r hr (hkeep.table.symm.trans ht) (hkeep.link_some hlink)

theorem run_keeps {s : Statement} (hrun : s.run connectionId rows = .ok rows') :
    ∀ r' ∈ rows', ∃ r ∈ rows, Row.Keeps (fun _ _ _ => True) r r' := by
  cases s with
  | delete t conditions =>
    obtain ⟨fallen, live, -, -, hlive, rfl⟩ := deleteWhere_spec (Q := fun _ => True) (run_delete hrun)
      (fun _ _ _ => trivial) fun _ _ _ _ _ _ _ _ _ => trivial
    intro r' hr'
    obtain ⟨r, hr, rfl⟩ := List.mem_map.mp hr'
    exact ⟨r, (hlive r hr).1, keeps_clear fallen r⟩
  | clear t c parent =>
    cases hrun
    intro r' hr'
    obtain ⟨r, hr, rfl⟩ := List.mem_map.mp hr'
    refine ⟨r, hr, ?_⟩
    split
    · exact .clear fun _ _ => trivial
    · exact .refl r

theorem runAll_keeps {statements : List Statement} (hrun : runAll connectionId statements rows = .ok rows') :
    ∀ r' ∈ rows', ∃ r ∈ rows, Row.Keeps (fun _ _ _ => True) r r' := by
  induction statements generalizing rows with
  | nil =>
    cases hrun
    exact fun r' hr' => ⟨r', hr', .refl r'⟩
  | cons s statements ih =>
    obtain ⟨middle, hfirst, hrest⟩ := runAll_cons hrun
    intro r' hr'
    obtain ⟨r1, hr1, hk1⟩ := ih hrest r' hr'
    obtain ⟨r, hr, hk⟩ := run_keeps hfirst r1 hr1
    exact ⟨r, hr, hk.trans hk1⟩

theorem noneLinked_delete {t : Table} {conditions : List Selector} {c : Column} (hc : .account c ∈ conditions)
    (hrun : (Statement.delete t conditions).run connectionId rows = .ok rows') : NoneLinked connectionId t c rows' := by
  obtain ⟨fallen, live, -, -, hlive, rfl⟩ := deleteWhere_spec (Q := fun _ => True) (run_delete hrun)
    (fun _ _ _ => trivial) fun _ _ _ _ _ _ _ _ _ => trivial
  intro r' hr' ht hlink
  obtain ⟨r, hr, rfl⟩ := List.mem_map.mp hr'
  have hkeep := keeps_clear fallen r
  obtain ⟨-, hnot⟩ := hlive r hr
  refine Bool.eq_false_iff.mp hnot ?_
  unfold selected
  rw [decide_eq_true (hkeep.table.symm.trans ht), Bool.true_and]
  exact List.any_eq_true.mpr ⟨_, hc, beq_iff_eq.mpr (hkeep.link_some hlink)⟩

end Erasing

end TeamInbox.Connections
