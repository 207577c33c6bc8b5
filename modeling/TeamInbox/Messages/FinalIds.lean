import TeamInbox.Messages.CleanupBatch

/-!
# TeamInbox.Messages.FinalIds — renaming never collides

The worker sends a message under an id of its own choice; everybody who names that id, names it for that message.
As long as no message event stores a second row under it (`InOrder`), no row bears the final id of another
(`Unsplit`), and whoever renames rows keeps the ids of a connection unique.
-/

namespace TeamInbox.Messages

open Lib

open Worker (CommandID Ledger StoredCommandResult)

/-- The WhatsApp ids of the messages, by their pending ids. -/
structure WhatsAppIds where
  final : String → Option String
  injective : ∀ p q f, final p = some f → final q = some f → p = q
  distinct : ∀ p f, final p = some f → final f = none

section Ids

variable (ids : WhatsAppIds)

/-- The row keeps its id or takes the final one. -/
def Renames (r r' : MessageRow) : Prop := r'.messageId = r.messageId ∨ ids.final r.messageId = some r'.messageId

def Unsplit (rows : List MessageRow) : Prop := ∀ r ∈ rows, ∀ t ∈ rows, ids.final r.messageId ≠ some t.messageId

structure Named (rows : List MessageRow) : Prop where
  nodup : (rows.map (·.messageId)).Nodup
  unsplit : Unsplit ids rows

variable {ids}

theorem Named.rename {rows : List MessageRow} {g : MessageRow → MessageRow} (h : Named ids rows)
    (hg : ∀ r ∈ rows, Renames ids r (g r)) : Named ids (rows.map g) := by
  constructor
  · rw [List.map_map]
    refine h.nodup.of_map.map_on fun r hr t ht heq => ?_
    have heq : (g r).messageId = (g t).messageId := heq
    refine List.inj_on_of_nodup_map h.nodup hr ht ?_
    rcases hg r hr with hr' | hr' <;> rcases hg t ht with ht' | ht'
    · exact hr'.symm.trans (heq.trans ht')
    · rw [← heq, hr'] at ht'
      exact absurd ht' (h.unsplit t ht r hr)
    · rw [heq, ht'] at hr'
      exact absurd hr' (h.unsplit r hr t ht)
    · exact ids.injective _ _ _ hr' (heq ▸ ht')
  · intro r' hr' t' ht' hfinal
    obtain ⟨r, hr, rfl⟩ := List.mem_map.mp hr'
    obtain ⟨t, ht, rfl⟩ := List.mem_map.mp ht'
    rcases hg r hr with hrs | hrf
    · rw [hrs] at hfinal
      rcases hg t ht with hts | htf
      · exact h.unsplit r hr t ht (hts ▸ hfinal)
      · -- `t` takes the id that is final for `r`: they are one row, and it has kept its id
        have hname := ids.injective _ _ _ hfinal htf
        obtain rfl := List.inj_on_of_nodup_map h.nodup hr ht hname
        rw [hrs] at htf
        exact absurd (ids.distinct _ _ htf) (by rw [htf]; exact Option.some_ne_none _)
    · rw [ids.distinct _ _ hrf] at hfinal
      exact absurd hfinal.symm (Option.some_ne_none _)

theorem Named.insert {rows : List MessageRow} {r : MessageRow} (h : Named ids rows)
    (hunused : r.messageId ∉ rows.map (·.messageId)) (hself : ids.final r.messageId ≠ some r.messageId)
    (hfree : ∀ t ∈ rows, ids.final t.messageId ≠ some r.messageId ∧ ids.final r.messageId ≠ some t.messageId) :
    Named ids (rows ++ [r]) := by
  constructor
  · rw [List.map_append, List.nodup_append]
    refine ⟨h.nodup, List.nodup_singleton _, fun i hi j hj hij => hunused ?_⟩
    rw [List.map_singleton, List.mem_singleton] at hj
    exact hj ▸ hij ▸ hi
  · intro t ht u hu
    rw [List.mem_append, List.mem_singleton] at ht hu
    rcases ht with ht | rfl <;> rcases hu with hu | rfl
    · exact h.unsplit t ht u hu
    · exact (hfree t ht).1
    · exact (hfree u hu).2
    · exact hself

theorem final_ne_self (p : String) : ids.final p ≠ some p := fun h => by
  rw [ids.distinct p p h] at h
  exact absurd h.symm (Option.some_ne_none _)

/-! ### Who speaks of an id -/

variable (ids)

def Honest (r : StoredCommandResult) : Prop := ∀ f ∈ responseId r, ids.final r.pendingMessageID = some f

def LedgersHonest (s : CompanyDb) : Prop :=
  ∀ session commandId row, (s.ledgers session).find? commandId = some row → Honest ids row.result

/-- Events name the final id of their message.  A message event comes after the rename, if the message is one of
ours. -/
def EventInOrder (rows : List MessageRow) : MessageAction → Prop
  | .receipt messageId _ pendingMessageId => ∀ p ∈ givenId pendingMessageId, ids.final p = some messageId
  | .confirmation pendingMessageId messageId => ids.final pendingMessageId = some messageId
  | .sendFailed pendingMessageId _ messageId _ => ∀ f ∈ givenId messageId, ids.final pendingMessageId = some f
  | .message _ messageId _ _ _ _ =>
    ids.final messageId = none ∧ ∀ t ∈ rows, ids.final t.messageId ≠ some messageId
  | _ => True

/-- What WhatsApp and the worker say is in order. -/
def InOrder (t : Calls CompanyDb CleanupCall) : CallAction CleanupAction CompanyEvent → Prop
  | .env (.send c _ messageId _ _ _) => ∀ r ∈ (t.shared.messages c).rows,
      ids.final r.messageId ≠ some messageId ∧ ids.final messageId ≠ some r.messageId
  | .env (.message c a) => EventInOrder ids (t.shared.messages c).rows a
  | .env (.ledger _ _ (.begin _ result)) | .env (.ledger _ _ (.save _ result)) => Honest ids result
  | _ => True

variable {ids}

theorem RowMove.renames {rows : List MessageRow} {a : MessageAction} {r r' : MessageRow} (h : RowMove a r r')
    (ha : EventInOrder ids rows a) : Renames ids r r' := by
  cases h with
  | same | failed | history => exact .inl rfl
  | receipt hdb hid =>
    rcases hid with hsame | ⟨p, hp, hpending⟩
    · exact .inl hsame.symm
    · exact .inr (hpending ▸ ha p hp)
  | confirmation hid =>
    rcases hid with hpending | hfinal
    · exact .inr (hpending ▸ ha)
    · exact .inl hfinal.symm
  | @unknown p reason messageId r hsel =>
    have hname : r.messageId = p := by
      simp only [unknownSelects, Bool.and_eq_true, decide_eq_true_eq] at hsel
      exact hsel.1
    have hset : (unknownSets messageId reason r).messageId = (givenId messageId).getD r.messageId := rfl
    cases hgiven : givenId messageId with
    | none =>
      rw [hgiven] at hset
      exact .inl hset
    | some f =>
      rw [hgiven] at hset
      have hfinal : ids.final p = some f := ha f hgiven
      exact .inr (by rw [hname, hset, hfinal]; rfl)

/-! ### The ledger -/

theorem Ledger.apply_cases {l : Ledger StoredCommandResult} {id id' : CommandID} {write : LedgerWrite}
    {row : Worker.ProcessedCommand StoredCommandResult} (h : (write.apply l id).find? id' = some row) :
    (∃ old, l.find? id' = some old ∧ old.result = row.result) ∨
      ∃ commandType, write = .begin commandType row.result ∨ write = .save commandType row.result := by
  cases write with
  | begin commandType intent =>
    simp only [LedgerWrite.apply, Ledger.beginSendCommand] at h
    cases hl : l.find? id with
    | some old =>
      rw [hl] at h
      exact .inl ⟨row, h, rfl⟩
    | none =>
      rw [hl, Table.find?_put] at h
      split_ifs at h with hid
      · obtain rfl := Option.some.inj h
        exact .inr ⟨commandType, .inl rfl⟩
      · exact .inl ⟨row, h, rfl⟩
  | save commandType result =>
    by_cases hid : id' = id
    · subst hid
      obtain ⟨row', hrow, hres⟩ := Worker.Ledger.find?_saveProcessedCommand_self l (·.inFlight) id' commandType result
      obtain rfl := Option.some.inj (hrow.symm.trans h)
      rcases hres with rfl | hold
      · exact .inr ⟨commandType, .inr rfl⟩
      · exact .inl ⟨row', hold, rfl⟩
    · have hold := Worker.Ledger.find?_saveProcessedCommand_ne l (·.inFlight) id id' commandType result hid
      exact .inl ⟨row, hold.symm.trans h, rfl⟩
  | mark =>
    have hmark := Worker.Ledger.find?_markCommandEventPublished l id id'
    have h : (l.markCommandEventPublished id).find? id' = some row := h
    rw [h] at hmark
    obtain ⟨old, hold, hres⟩ := Option.map_eq_some_iff.mp hmark.symm
    exact .inl ⟨old, hold, hres⟩
  | prune =>
    have h : (l.erase id).find? id' = some row := h
    rw [Table.find?_erase] at h
    split_ifs at h with hid
    exact .inl ⟨row, h, rfl⟩

theorem LedgersHonest.result {s : CompanyDb} (h : LedgersHonest ids s) {companyId messageId : String}
    {o : StoredCommandResult} (ho : o ∈ s.outcomes companyId messageId) :
    ∀ f ∈ responseId o, ids.final messageId = some f := by
  obtain ⟨⟨command, hmem⟩, hname, -⟩ := mem_outcomes ho
  obtain ⟨command', -, hget⟩ := List.mem_filterMap.mp hmem
  split_ifs at hget
  obtain ⟨o', hresult, heq⟩ := Option.map_eq_some_iff.mp hget
  obtain ⟨row, hrow, rfl⟩ := Option.map_eq_some_iff.mp hresult
  obtain ⟨-, rfl⟩ := Prod.mk.inj heq
  exact hname ▸ h _ _ row hrow

/-! ### Runs -/

variable {companyId : String} {connections : List String} {timestamp : ℕ → ℕ}

/-- The cycle has not failed, and the ledger it sees is honest. -/
def CallHonest (ids : WhatsAppIds) : CleanupCall → Prop
  | .reconciling _ seen => LedgersHonest ids seen
  | .aborted => False
  | _ => True

structure NamedInv (ids : WhatsAppIds) (s : CompanyDb) : Prop where
  idsUnique : IdsUnique s
  named : ∀ c, Named ids (s.messages c).rows
  honest : LedgersHonest ids s

theorem renames_reconcileRow {w : CleanupCycle} {seen s : CompanyDb} {locked : List (String × ℕ)}
    {failedAt c : String} {r : MessageRow} (hseen : LedgersHonest ids seen) (hids : IdsUnique s)
    (hr : r ∈ (s.messages c).rows) : Renames ids r
      (reconcileRow (reconcileBatch companyId connections timestamp w seen s locked) failedAt c r) := by
  unfold reconcileRow
  split
  · next o ho =>
    split_ifs with hsel
    · have hout := hseen.result (outcomeOf_sound hids hr ho).2
      have hset : (reconcileSets o failedAt r).messageId =
          if o.failed = true then r.messageId else (responseId o).getD r.messageId := rfl
      split_ifs at hset with hfailed
      · exact .inl hset
      · cases hid : responseId o with
        | none =>
          rw [hid] at hset
          exact .inl hset
        | some f =>
          rw [hid] at hset
          exact .inr (by rw [hset]; exact hout f hid)
    · exact .inl rfl
  · exact .inl rfl

theorem messageId_expireRow {w : CleanupCycle} {seen : CompanyDb} {batch : List (String × ℕ)} {failedAt c : String}
    (r : MessageRow) : (expireRow companyId timestamp w seen batch failedAt c r).messageId = r.messageId := by
  unfold expireRow
  split_ifs <;> rfl

theorem rewrite_fine {s : CompanyDb} {f : String → MessageRow → MessageRow}
    (h : ∀ c, (((s.messages c).rows.map (f c)).map (·.messageId)).Nodup) :
    s.rewrite connections f ≠ .error .uniqueViolation := by
  unfold CompanyDb.rewrite
  rw [if_pos fun c _ => h c]
  intro hok
  cases hok

theorem NamedInv.act {s s' : CompanyDb} {x y : CleanupCall} (hs : NamedInv ids s) (hx : CallHonest ids x)
    (h : CleanupMove companyId connections timestamp s x s' y) : NamedInv ids s' ∧ CallHonest ids y := by
  have hexpire : ∀ {w seen batch failedAt} c, Named ids
      ((s.messages c).rows.map (expireRow companyId timestamp w seen batch failedAt c)) := fun c =>
    (hs.named c).rename fun r _ => .inl (messageId_expireRow r)
  cases h with
  | begin w => exact ⟨hs, hs.honest⟩
  | reconcile h =>
    refine ⟨⟨h.idsUnique (fun c => later_reconcileRow _ _ c) hs.idsUnique, fun c => ?_, ?_⟩, trivial⟩
    · rw [h.rows]
      exact (hs.named c).rename fun r hr => renames_reconcileRow hx hs.idsUnique hr
    · exact fun session => h.ledgers ▸ hs.honest session
  | reconcileFails h =>
    refine absurd h (rewrite_fine fun c => ?_)
    exact ((hs.named c).rename fun r hr => renames_reconcileRow hx hs.idsUnique hr).nodup
  | examine w first => exact ⟨hs, trivial⟩
  | expire h =>
    refine ⟨⟨h.idsUnique (fun c => later_expireRow _ _ _ _ _ _ c) hs.idsUnique, fun c => ?_, ?_⟩, trivial⟩
    · rw [h.rows]
      exact hexpire c
    · exact fun session => h.ledgers ▸ hs.honest session
  | expireFails h => exact absurd h (rewrite_fine fun c => (hexpire c).nodup)

theorem named_setMessages {s : CompanyDb} {c : String} {store : MessageStore} (hs : ∀ c, Named ids (s.messages c).rows)
    (h : Named ids store.rows) (c' : String) : Named ids ((s.setMessages c store).messages c').rows := by
  rw [messages_setMessages]
  split_ifs
  · exact h
  · exact hs c'

theorem NamedInv.env {t : Calls CompanyDb CleanupCall} {e : CompanyEvent} {s' : CompanyDb}
    (hs : NamedInv ids t.shared) (hC : InOrder ids t (.env e)) (h : companyEnv companyId e t.shared = some s') :
    NamedInv ids s' := by
  have hunique := (companyEnv_since hs.idsUnique h).1
  cases e with
  | send c id messageId metadata sessionId commandId =>
    rcases storeSend_cases h with rfl | ⟨-, hunused, rfl⟩
    · exact hs
    · refine ⟨hunique, named_setMessages hs.named ?_, hs.honest⟩
      exact (hs.named c).insert hunused (final_ne_self _) hC
  | enqueue command =>
    obtain rfl := Option.some.inj h
    exact ⟨hunique, hs.named, hs.honest⟩
  | message c a =>
    simp only [companyEnv] at h
    split_ifs at h with ha
    obtain ⟨store, hstep, rfl⟩ := Option.map_eq_some_iff.mp h
    refine ⟨hunique, named_setMessages hs.named ?_, hs.honest⟩
    rcases messageStep_rows ha hstep with ⟨r, hnew, hrows⟩ | ⟨f, hrows, hmove, -⟩
    · obtain ⟨fromMe, status, isHistorySync, metadata, rfl⟩ := hnew.event
      obtain ⟨hnone, hfree⟩ := hC
      rw [hrows]
      refine (hs.named c).insert hnew.unused (final_ne_self _) fun t ht => ⟨hfree t ht, ?_⟩
      rw [hnone]
      exact fun h => absurd h.symm (Option.some_ne_none _)
    · rw [hrows]
      exact (hs.named c).rename fun r _ => (hmove r).renames hC
  | ledger sessionId commandId write =>
    obtain rfl := Option.some.inj h
    refine ⟨hunique, hs.named, fun session id row hrow => ?_⟩
    have hrow : (Function.update t.shared.ledgers sessionId _ session).find? id = some row := hrow
    rw [Function.update_apply] at hrow
    split_ifs at hrow with hsession
    · rcases Ledger.apply_cases hrow with ⟨old, hold, hres⟩ | ⟨commandType, rfl | rfl⟩
      · exact hres ▸ hs.honest _ _ old hold
      · exact hC
      · exact hC
    · exact hs.honest _ _ row hrow

theorem namedInv_step {t t' : Calls CompanyDb CleanupCall} {a : CallAction CleanupAction CompanyEvent}
    (hs : Holds (NamedInv ids) (fun _ _ => CallHonest ids) t) (hC : InOrder ids t a)
    (h : (cleanupSystem companyId connections timestamp).step t a = some t') :
    Holds (NamedInv ids) (fun _ _ => CallHonest ids) t' := by
  refine Machine.holds_step ?_ ?_ t a t' hs hC h
  · intro t p a s' y hs hC hact
    obtain ⟨hs', hy⟩ := NamedInv.act hs.1 (hs.2 p) (cleanupAct_cases (p := p) hact)
    exact ⟨hs', hy, fun q _ => hs.2 q⟩
  · intro t e s' hs hC henv
    exact ⟨hs.1.env hC henv, hs.2⟩

theorem namedInv_empty : NamedInv ids .empty :=
  ⟨fun _ => List.nodup_nil, fun _ => ⟨List.nodup_nil, fun _ h => absurd h List.not_mem_nil⟩,
    fun _ _ _ h => absurd h (Option.some_ne_none _).symm⟩

end Ids

end TeamInbox.Messages
