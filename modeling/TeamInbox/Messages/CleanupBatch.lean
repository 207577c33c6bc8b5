import TeamInbox.Messages.RowMoves

/-!
# TeamInbox.Messages.CleanupBatch — what the two statements choose and write

A statement chooses among the rows it found when it began those that nobody has locked and that it still wants in
their newest version; if it does not fill its batch, it chooses all of them.  The lemmas say what each statement
does to a row, and `cleanupAct_cases` and `companyEnv_since` what a step of a cycle and of everybody else does to
the tables.
-/

namespace TeamInbox.Messages

open Lib

open Worker (CommandID Ledger StoredCommandResult)

variable {companyId : String} {connections : List String} {timestamp : ℕ → ℕ}

/-! ### Batches -/

theorem mem_examined {selects : MessageRow → Bool} {seen : CompanyDb} {c : String} {r : MessageRow} :
    (c, r) ∈ examined connections timestamp selects seen ↔
      c ∈ connections ∧ r ∈ (seen.messages c).rows ∧ selects r = true := by
  simp only [examined, List.mem_insertionSort, List.mem_flatMap, List.mem_map, List.mem_filter, Prod.mk.injEq]
  constructor
  · rintro ⟨_, hc, r', ⟨hr, hsel⟩, rfl, rfl⟩
    exact ⟨hc, hr, hsel⟩
  · rintro ⟨hc, hr, hsel⟩
    exact ⟨c, hc, r, ⟨hr, hsel⟩, rfl, rfl⟩

theorem mem_take_of_not_full {α : Type} {l : List α} {n : ℕ} (h : decide (n ≤ (l.take n).length) = false) {a : α}
    (ha : a ∈ l) : a ∈ l.take n := by
  have hlt : (l.take n).length < n := by
    have := of_decide_eq_false h
    omega
  rw [List.length_take] at hlt
  rw [List.take_of_length_le (by omega)]
  exact ha

theorem stillMeets_iff {db : CompanyDb} {c : String} {id : ℕ} {selects : MessageRow → Bool} :
    stillMeets db c id selects = true ↔ ∃ r ∈ (db.messages c).rows, r.id = id ∧ selects r = true := by
  simp only [stillMeets, List.any_eq_true, Bool.and_eq_true, decide_eq_true_eq]

theorem IdsUnique.eq {s : CompanyDb} (h : IdsUnique s) {c : String} {r t : MessageRow}
    (hr : r ∈ (s.messages c).rows) (ht : t ∈ (s.messages c).rows) (hid : r.id = t.id) : r = t :=
  List.inj_on_of_nodup_map (h c) hr ht hid

/-! ### Reconciliation -/

variable {w : CleanupCycle} {seen s : CompanyDb} {locked : List (String × ℕ)} {c : String} {r : MessageRow}

theorem mem_outcomes {messageId : String} {o : StoredCommandResult} (h : o ∈ seen.outcomes companyId messageId) :
    (∃ command, (command, o) ∈ seen.processedCommands companyId) ∧ o.pendingMessageID = messageId ∧
      processed o = true := by
  obtain ⟨⟨command, o'⟩, hmem, rfl⟩ := List.mem_map.mp h
  obtain ⟨hin, hcond⟩ := List.mem_filter.mp hmem
  simp only [Bool.and_eq_true, decide_eq_true_eq] at hcond
  exact ⟨⟨command, hin⟩, hcond.1.2, hcond.2⟩

theorem outcomeOf_sound (hids : IdsUnique s) (hr : r ∈ (s.messages c).rows) {o : StoredCommandResult}
    (h : outcomeOf (reconcileBatch companyId connections timestamp w seen s locked) c r = some o) :
    c ∈ connections ∧ o ∈ seen.outcomes companyId r.messageId := by
  obtain ⟨row, hfind, rfl⟩ := Option.map_eq_some_iff.mp h
  have hkey := List.find?_some hfind
  simp only [Bool.and_eq_true, decide_eq_true_eq] at hkey
  obtain ⟨rfl, hid⟩ := hkey
  obtain ⟨hmem, hcond⟩ := List.mem_filter.mp (List.mem_of_mem_take (List.mem_of_find?_eq_some hfind))
  rw [Bool.and_eq_true, stillMeets_iff] at hcond
  obtain ⟨t, ht, htid, htcond⟩ := hcond.2
  obtain rfl := hids.eq ht hr (htid.trans hid)
  rw [Bool.and_eq_true, decide_eq_true_eq] at htcond
  obtain ⟨m, hm, hout⟩ := List.mem_flatMap.mp hmem
  obtain ⟨o, ho, rfl⟩ := List.mem_map.mp hout
  exact ⟨(mem_examined.mp hm).1, htcond.1 ▸ ho⟩

theorem outcomeOf_complete {r₀ : MessageRow} (hc : c ∈ connections) (hr₀ : r₀ ∈ (seen.messages c).rows)
    (hsel₀ : reconcilable timestamp w r₀ = true) (houtcome : seen.outcomes companyId r₀.messageId ≠ [])
    (hlocked : (c, r₀.id) ∉ locked) (hr : r ∈ (s.messages c).rows) (hid : r.id = r₀.id)
    (hname : r.messageId = r₀.messageId) (hsel : reconcilable timestamp w r = true)
    (hfull : decide (w.batchSize ≤ (reconcileBatch companyId connections timestamp w seen s locked).length) = false) :
    ∃ o, outcomeOf (reconcileBatch companyId connections timestamp w seen s locked) c r = some o := by
  obtain ⟨o, ho⟩ := List.exists_mem_of_ne_nil _ houtcome
  have hmem : (⟨c, r₀, o⟩ : OutcomeRow) ∈ reconcileBatch companyId connections timestamp w seen s locked := by
    refine mem_take_of_not_full hfull (List.mem_filter.mpr ⟨?_, ?_⟩)
    · exact List.mem_flatMap.mpr ⟨(c, r₀), mem_examined.mpr ⟨hc, hr₀, hsel₀⟩, List.mem_map.mpr ⟨o, ho, rfl⟩⟩
    · rw [Bool.and_eq_true, stillMeets_iff]
      refine ⟨decide_eq_true hlocked, r, hr, hid, ?_⟩
      rw [Bool.and_eq_true, decide_eq_true_eq]
      exact ⟨hname, hsel⟩
  have hsome : ((reconcileBatch companyId connections timestamp w seen s locked).find? fun row =>
      decide (row.connectionId = c) && decide (row.row.id = r.id)).isSome = true :=
    List.find?_isSome.mpr ⟨_, hmem, by rw [decide_eq_true rfl, decide_eq_true hid.symm]; rfl⟩
  obtain ⟨row, hrow⟩ := Option.isSome_iff_exists.mp hsome
  exact ⟨row.result, Option.map_eq_some_iff.mpr ⟨row, hrow, rfl⟩⟩

theorem rank_of_undecided (h : undecided r = true) : r.rank = 0 := by
  simp only [undecided, Bool.or_eq_true, Bool.and_eq_true, decide_eq_true_eq] at h
  rcases h with hstatus | ⟨hstatus, -⟩ <;> rw [MessageRow.rank, hstatus] <;> rfl

theorem undecided_of_waits (h : waits r = true) : undecided r = true := by
  simp only [waits, Bool.and_eq_true] at h
  rw [undecided, h.1.1]
  rfl

theorem reconcilable_of_waits (h : waits r = true) (hold : timestamp r.id < w.cutoff) :
    reconcilable timestamp w r = true := by
  have hmine : r.fromMe = true := by
    simp only [waits, Bool.and_eq_true] at h
    exact h.1.2
  rw [reconcilable, undecided_of_waits h, hmine, decide_eq_true hold]
  rfl

theorem reconcileRow_of_rank {batch : List OutcomeRow} {failedAt : String} (h : 1 ≤ r.rank) :
    reconcileRow batch failedAt c r = r := by
  unfold reconcileRow
  split
  · refine if_neg fun hsel => ?_
    rw [rank_of_undecided hsel] at h
    exact absurd h (by decide)
  · rfl

theorem done_reconcileRow {batch : List OutcomeRow} {failedAt : String} {o : StoredCommandResult}
    (h : outcomeOf batch c r = some o) (hsel : undecided r = true) : Done (reconcileRow batch failedAt c r) := by
  have hsets : reconcileRow batch failedAt c r = reconcileSets o failedAt r := by
    rw [reconcileRow, h]
    exact if_pos hsel
  rw [hsets]
  exact done_reconcileSets o failedAt r

/-! ### Timeouts -/

theorem stale_iff : stale companyId timestamp w seen r = true ↔
    waits r = true ∧ timestamp r.id < w.cutoff ∧ seen.accountedFor companyId r.messageId = false := by
  rw [stale, expireSelects, waits, decide_eq_true rfl, Bool.true_and, Bool.and_eq_true, Bool.and_eq_true,
    decide_eq_true_eq, Bool.not_eq_true', and_assoc]

theorem mem_expireBatch {r₀ : MessageRow} (hc : c ∈ connections) (hr₀ : r₀ ∈ (seen.messages c).rows)
    (hsel₀ : stale companyId timestamp w seen r₀ = true) (hlocked : (c, r₀.id) ∉ locked)
    (hr : r ∈ (s.messages c).rows) (hid : r.id = r₀.id) (hsel : stale companyId timestamp w seen r = true)
    (hfull : decide (w.batchSize ≤ (expireBatch companyId connections timestamp w seen s locked).length) = false) :
    (c, r.id) ∈ expireBatch companyId connections timestamp w seen s locked := by
  refine mem_take_of_not_full hfull (List.mem_filter.mpr ⟨?_, ?_⟩)
  · exact List.mem_map.mpr ⟨(c, r₀), mem_examined.mpr ⟨hc, hr₀, hsel₀⟩, by rw [hid]⟩
  · rw [Bool.and_eq_true, stillMeets_iff, hid]
    exact ⟨decide_eq_true hlocked, r, hr, hid, hsel⟩

theorem status_of_waits (h : waits r = true) : r.status = some .pending := by
  simp only [waits, Bool.and_eq_true, decide_eq_true_eq] at h
  exact h.1.1

theorem expireRow_of_rank {batch : List (String × ℕ)} {failedAt : String} (h : 1 ≤ r.rank) :
    expireRow companyId timestamp w seen batch failedAt c r = r := by
  refine if_neg fun hsel => ?_
  have hpending := status_of_waits (stale_iff.mp (Bool.and_eq_true_iff.mp hsel).2).1
  rw [MessageRow.rank, hpending] at h
  exact absurd h (by decide)

theorem not_waits_expireRow {batch : List (String × ℕ)} {failedAt : String} (hmem : (c, r.id) ∈ batch)
    (hsel : stale companyId timestamp w seen r = true) :
    waits (expireRow companyId timestamp w seen batch failedAt c r) = false := by
  rw [expireRow, decide_eq_true hmem, hsel]
  rfl

/-! ### Steps -/

inductive CleanupMove (companyId : String) (connections : List String) (timestamp : ℕ → ℕ) (s : CompanyDb) :
    CleanupCall → CompanyDb → CleanupCall → Prop
  | begin (w : CleanupCycle) : CleanupMove companyId connections timestamp s .idle s (.reconciling w s)
  | reconcile {w : CleanupCycle} {seen s' : CompanyDb} {locked : List (String × ℕ)} {failedAt : String}
      (h : Rewrites s s' (reconcileRow (reconcileBatch companyId connections timestamp w seen s locked) failedAt)) :
      CleanupMove companyId connections timestamp s (.reconciling w seen) s'
        (.reconciled w ⟨seen, s, locked,
          decide (w.batchSize ≤ (reconcileBatch companyId connections timestamp w seen s locked).length)⟩)
  | reconcileFails {w : CleanupCycle} {seen : CompanyDb} {locked : List (String × ℕ)} {failedAt : String}
      (h : s.rewrite connections (reconcileRow (reconcileBatch companyId connections timestamp w seen s locked)
        failedAt) = .error .uniqueViolation) :
      CleanupMove companyId connections timestamp s (.reconciling w seen) s .aborted
  | examine (w : CleanupCycle) (first : Pass) :
      CleanupMove companyId connections timestamp s (.reconciled w first) s (.expiring w first s)
  | expire {w : CleanupCycle} {first : Pass} {seen s' : CompanyDb} {locked : List (String × ℕ)} {failedAt : String}
      (h : Rewrites s s' (expireRow companyId timestamp w seen
        (expireBatch companyId connections timestamp w seen s locked) failedAt)) :
      CleanupMove companyId connections timestamp s (.expiring w first seen) s'
        (.finished w first ⟨seen, s, locked,
          decide (w.batchSize ≤ (expireBatch companyId connections timestamp w seen s locked).length)⟩)
  | expireFails {w : CleanupCycle} {first : Pass} {seen : CompanyDb} {locked : List (String × ℕ)} {failedAt : String}
      (h : s.rewrite connections (expireRow companyId timestamp w seen
        (expireBatch companyId connections timestamp w seen s locked) failedAt) = .error .uniqueViolation) :
      CleanupMove companyId connections timestamp s (.expiring w first seen) s .aborted

theorem cleanupAct_cases {p : ℕ} {x y : CleanupCall} {a : CleanupAction} {s' : CompanyDb}
    (h : cleanupAct companyId connections timestamp p s x a = some (s', y)) :
    CleanupMove companyId connections timestamp s x s' y := by
  cases x <;> cases a <;> simp only [cleanupAct, Option.some.injEq, Prod.mk.injEq, reduceCtorEq] at h
  case idle.begin now timeoutMinutes batchSize =>
    obtain ⟨rfl, rfl⟩ := h
    exact .begin _
  case reconciling.reconcile w seen locked failedAt =>
    dsimp only [reconcileStep] at h
    split at h
    · next s₁ hok =>
      obtain ⟨rfl, rfl⟩ := Prod.mk.inj h
      exact .reconcile (rewrite_ok hok).1
    · next e herr =>
      obtain ⟨rfl, rfl⟩ := Prod.mk.inj h
      cases e
      exact .reconcileFails herr
  case reconciled.examine w first =>
    obtain ⟨rfl, rfl⟩ := h
    exact .examine w first
  case expiring.expire w first seen locked failedAt =>
    dsimp only [expireStep] at h
    split at h
    · next s₁ hok =>
      obtain ⟨rfl, rfl⟩ := Prod.mk.inj h
      exact .expire (rewrite_ok hok).1
    · next e herr =>
      obtain ⟨rfl, rfl⟩ := Prod.mk.inj h
      cases e
      exact .expireFails herr

theorem CleanupMove.since {x y : CleanupCall} {s' : CompanyDb}
    (h : CleanupMove companyId connections timestamp s x s' y) : Since s s' := by
  cases h with
  | reconcile h => exact h.since fun c => later_reconcileRow _ _ c
  | expire h => exact h.since fun c => later_expireRow _ _ _ _ _ _ c
  | begin | reconcileFails | examine | expireFails => exact .refl s

theorem CleanupMove.idsUnique {x y : CleanupCall} {s' : CompanyDb}
    (h : CleanupMove companyId connections timestamp s x s' y) (hs : IdsUnique s) : IdsUnique s' := by
  cases h with
  | reconcile h => exact h.idsUnique (fun c => later_reconcileRow _ _ c) hs
  | expire h => exact h.idsUnique (fun c => later_expireRow _ _ _ _ _ _ c) hs
  | begin | reconcileFails | examine | expireFails => exact hs

/-! ### Everybody else -/

theorem messages_setMessages (s : CompanyDb) (c c' : String) (store : MessageStore) :
    (s.setMessages c store).messages c' = if c' = c then store else s.messages c' :=
  Function.update_apply s.messages c store c'

theorem since_setMessages {store : MessageStore} (h : ∀ r ∈ (s.messages c).rows, ∃ r' ∈ store.rows, Later r r') :
    Since s (s.setMessages c store) := by
  intro c' r hr
  rw [messages_setMessages]
  split_ifs with hc
  · exact h r (hc ▸ hr)
  · exact ⟨r, hr, .refl r⟩

theorem idsUnique_setMessages {store : MessageStore} (hs : IdsUnique s) (h : (store.rows.map (·.id)).Nodup) :
    IdsUnique (s.setMessages c store) := by
  intro c'
  rw [messages_setMessages]
  split_ifs
  · exact h
  · exact hs c'

theorem nodup_ids_append {store : MessageStore} (hs : (store.rows.map (·.id)).Nodup)
    (hr : r.id ∉ store.rows.map (·.id)) : ((store.rows ++ [r]).map (·.id)).Nodup := by
  rw [List.map_append, List.nodup_append]
  refine ⟨hs, List.nodup_singleton _, fun i hi j hj hij => hr ?_⟩
  rw [List.map_singleton, List.mem_singleton] at hj
  exact hj ▸ hij ▸ hi

theorem storeSend_cases {s' : CompanyDb} {command : OutboxCommand} (h : storeSend s c r command = some s') :
    s' = s ∨ r.id ∉ (s.messages c).rows.map (·.id) ∧ r.messageId ∉ (s.messages c).rows.map (·.messageId) ∧
      s' = { s.setMessages c { s.messages c with rows := (s.messages c).rows ++ [r] } with
        outbox := s.outbox ++ [command] } := by
  unfold storeSend at h
  split_ifs at h with hfresh
  simp only [MessageStore.insert] at h
  by_cases hany : ((s.messages c).rows.any fun t => decide (t.messageId = r.messageId)) = true
  · rw [if_pos hany] at h
    exact .inl (Option.some.inj h).symm
  · rw [if_neg hany] at h
    refine .inr ⟨hfresh, fun hmem => hany ?_, (Option.some.inj h).symm⟩
    obtain ⟨t, ht, hid⟩ := List.mem_map.mp hmem
    exact List.any_eq_true.mpr ⟨t, ht, decide_eq_true hid⟩

theorem companyEnv_since {e : CompanyEvent} {s' : CompanyDb} (hs : IdsUnique s)
    (h : companyEnv companyId e s = some s') : IdsUnique s' ∧ Since s s' := by
  cases e with
  | send c id messageId metadata sessionId commandId =>
    rcases storeSend_cases h with rfl | ⟨hfresh, -, rfl⟩
    · exact ⟨hs, .refl _⟩
    · refine ⟨idsUnique_setMessages hs (nodup_ids_append (hs c) hfresh), ?_⟩
      exact since_setMessages fun r hr => ⟨r, List.mem_append_left _ hr, .refl r⟩
  | enqueue command =>
    obtain rfl := Option.some.inj h
    exact ⟨hs, .refl s⟩
  | message c a =>
    simp only [companyEnv] at h
    split_ifs at h with ha
    obtain ⟨store, hstep, rfl⟩ := Option.map_eq_some_iff.mp h
    rcases messageStep_rows ha hstep with ⟨r, hnew, hrows⟩ | ⟨f, hrows, hmove, -⟩
    · refine ⟨idsUnique_setMessages hs ?_, since_setMessages fun t ht => ⟨t, ?_, .refl t⟩⟩
      · rw [hrows]
        exact nodup_ids_append (hs c) hnew.fresh
      · rw [hrows]
        exact List.mem_append_left _ ht
    · refine ⟨idsUnique_setMessages hs ?_, since_setMessages fun t ht => ⟨f t, ?_, (hmove t).later⟩⟩
      · have hmap : store.rows.map (·.id) = (s.messages c).rows.map (·.id) := by
          rw [hrows, List.map_map]
          exact List.map_congr_left fun r _ => (hmove r).later.id
        rw [hmap]
        exact hs c
      · rw [hrows]
        exact List.mem_map_of_mem ht
  | ledger sessionId commandId write =>
    obtain rfl := Option.some.inj h
    exact ⟨hs, .refl s⟩

end TeamInbox.Messages
