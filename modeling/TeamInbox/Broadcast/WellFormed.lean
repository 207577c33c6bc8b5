import TeamInbox.Broadcast.Moves

/-!
# TeamInbox.Broadcast.WellFormed — identifiers, copies and locks

What every reachable state satisfies: rows have identifiers of their own, a dispatcher's copy of a row agrees
with it on job and contact, and no lock has two holders.  An open transaction holds the locks its process
speaks of, a purge also those of all contacts on its connection; so nothing moves a contact to or from it
(`routed_step`), nothing but its own commit touches what it has written (`RowMove.locked`), and no message is
sent to its contacts (`RowMove.unsent`).
-/

namespace TeamInbox.Broadcast

open Lib Tenant

/-- The locks of an open transaction, as far as its process tells. -/
def Process.locks : Process → List Lock
  | .canceling jobId _ | .cancelFound jobId _ _ => [.job jobId]
  | .cancelWritten jobId _ ids | .cancelCounted jobId _ ids _ => .job jobId :: ids.map .leaf
  | .purging connectionId contactRows | .purgeCounted connectionId contactRows _ =>
    .connection connectionId :: contactRows.map .contact
  | .purgeDeleted connectionId contactRows _ ids =>
    .connection connectionId :: contactRows.map .contact ++ ids.map .leaf
  | _ => []

/-- The connection a purge is about, and its contacts. -/
def Process.purges : Process → Option (ℕ × List ℕ)
  | .purging connectionId contactRows | .purgeCounted connectionId contactRows _
  | .purgeDeleted connectionId contactRows _ _ => some (connectionId, contactRows)
  | _ => none

section Steps

variable {cfg : BulkConfig} {s s' : Tenant} {a : ScheduledAction}

theorem unlocked_iff {l : Lock} : s.unlocked l = true ↔ ∀ p, (l, p) ∉ s.locks := by
  unfold unlocked
  constructor
  · intro h p hp
    have hne := List.all_eq_true.mp h _ hp
    simp at hne
  · intro h
    refine List.all_eq_true.mpr fun k hk => ?_
    have hne : k.1 ≠ l := fun heq => h k.2 (heq ▸ hk)
    simp [hne]

/-! ### Locks -/

/-- A step takes locks nobody holds, or gives up all locks of a call that ends. -/
inductive LocksChange (s s' : Tenant) : Prop
  | same (h : s'.locks = s.locks)
  | locked (p : ℕ) (ls : List Lock) (h : s'.locks = ls.map (·, p) ++ s.locks)
      (hfree : ∀ l ∈ ls, s.unlocked l = true)
  | released (p : ℕ) (h : s'.locks = s.locks.filter fun k => !decide (k.2 = p)) (hidle : s'.processes p = .idle)

/-- What a process claims to hold it held before, or has just locked. -/
def OwnLocks (s s' : Tenant) : Prop :=
  ∀ q, ∀ l, l ∈ (s'.processes q).locks → l ∈ (s.processes q).locks ∨ (l, q) ∈ s'.locks

theorem OwnLocks.of_eq (h : s'.processes = s.processes) : OwnLocks s s' := by
  intro q l hl
  rw [h] at hl
  exact .inl hl

theorem OwnLocks.of_set {p : ℕ} {y : Process} (h : s'.processes = Function.update s.processes p y)
    (hown : ∀ l ∈ y.locks, l ∈ (s.processes p).locks ∨ (l, p) ∈ s'.locks) : OwnLocks s s' := by
  intro q l hl
  by_cases hq : q = p
  · subst hq
    rw [h, Function.update_self] at hl
    exact hown l hl
  · rw [h, Function.update_of_ne hq] at hl
    exact .inl hl

theorem OwnLocks.of_none {p : ℕ} {y : Process} (h : s'.processes = Function.update s.processes p y)
    (hy : y.locks = []) : OwnLocks s s' :=
  .of_set h fun _ hl => absurd (hy ▸ hl) List.not_mem_nil

theorem locks_step (hstep : scheduledStep cfg s a = some s') : LocksChange s s' ∧ OwnLocks s s' := by
  cases stepMove_of hstep with
  | crash p => exact ⟨.released p rfl (Function.update_self _ _ _), .of_none rfl rfl⟩
  | unchanged | tick | advance | setContact | setConnection | schedule | createJob | markRunning | reschedule =>
    exact ⟨.same rfl, .of_eq rfl⟩
  | @claimBulk p connectionId now claimUntil date skipped =>
    rcases claimBulkLeafForConnection_cases cfg s connectionId now claimUntil date skipped with
      heq | heq | ⟨leaf, sentToday, -, -, -, -, -, heq⟩
    all_goals
      rw [heq]
      exact ⟨.same rfl, .of_none rfl rfl⟩
  | @cancelBegin p jobId job hp hjob hfree =>
    refine ⟨.locked p [.job jobId] rfl fun l hl => ?_, .of_set rfl fun l hl => ?_⟩
    · obtain rfl := List.mem_singleton.mp hl
      exact hfree
    · obtain rfl := List.mem_singleton.mp hl
      exact .inr List.mem_cons_self
  | cancelFind hp | cancelCount hp | purgeCount hp =>
    refine ⟨.same rfl, .of_set rfl fun l hl => ?_⟩
    rw [hp]
    exact .inl hl
  | @cancelWrite p jobId now ids written hp hfree hwritten =>
    refine ⟨.locked p _ rfl fun l hl => ?_, .of_set rfl fun l hl => ?_⟩
    · obtain ⟨i, hi, rfl⟩ := List.mem_map.mp hl
      rw [hwritten] at hi
      obtain ⟨r, hr, rfl⟩ := List.mem_map.mp hi
      obtain ⟨hr, hfound⟩ := List.mem_filter.mp hr
      exact unlocked_of_rowsFree hfree hr (Bool.and_eq_true_iff.mp hfound).1
    · rcases List.mem_cons.mp hl with rfl | hl
      · rw [hp]
        exact .inl List.mem_cons_self
      · exact .inr (List.mem_append_left _ (List.mem_map_of_mem hl))
  | @cancelCommit p | @purgeCommit p => exact ⟨.released p rfl (Function.update_self _ _ _), .of_none rfl rfl⟩
  | @purgeLock p connectionId hp hfree hcontacts =>
    refine ⟨.locked p _ rfl fun l hl => ?_, .of_set rfl fun l hl => ?_⟩
    · rcases List.mem_cons.mp hl with rfl | hl
      · exact hfree
      · obtain ⟨c, hc, rfl⟩ := List.mem_map.mp hl
        exact List.all_eq_true.mp hcontacts c hc
    · exact .inr (List.mem_append_left _ (List.mem_map_of_mem hl))
  | @purgeDelete p connectionId contactRows ids counted hp hjobs hrows hids =>
    refine ⟨.locked p _ rfl fun l hl => ?_, .of_set rfl fun l hl => ?_⟩
    · rcases List.mem_append.mp hl with hl | hl
      · obtain ⟨j, hj, rfl⟩ := List.mem_map.mp hl
        exact List.all_eq_true.mp hjobs j hj
      · obtain ⟨i, hi, rfl⟩ := List.mem_map.mp hl
        rw [hids] at hi
        obtain ⟨r, hr, rfl⟩ := List.mem_map.mp hi
        obtain ⟨hr, hrouted⟩ := List.mem_filter.mp hr
        exact unlocked_of_rowsFree hrows hr hrouted
    · rcases List.mem_append.mp hl with hl | hl
      · rw [hp]
        exact .inl hl
      · exact .inr (List.mem_append_left _ (List.mem_map_of_mem (List.mem_append_right _ hl)))
  | _ => exact ⟨.same rfl, .of_none rfl rfl⟩

/-! ### Contacts -/

theorem mem_contactsOf {connectionId c : ℕ} :
    c ∈ s.contactsOf connectionId ↔
      ∃ contact, s.contacts.find? c = some contact ∧ contact.connectionId = some connectionId := by
  unfold contactsOf
  constructor
  · intro h
    obtain ⟨e, he, rfl⟩ := List.mem_map.mp h
    obtain ⟨hmem, hconn⟩ := List.mem_filter.mp he
    exact ⟨e.2, Table.mem_entries.mp hmem, of_decide_eq_true hconn⟩
  · rintro ⟨contact, hfind, hconn⟩
    exact List.mem_map.mpr ⟨(c, contact),
      List.mem_filter.mpr ⟨Table.mem_entries.mpr hfind, decide_eq_true hconn⟩, rfl⟩

theorem contacts_step (hstep : scheduledStep cfg s a = some s') (c : ℕ) :
    s'.contacts.find? c = s.contacts.find? c ∨
    (s'.processes = s.processes ∧ s.unlocked (.contact c) = true ∧
      ∀ contact connectionId, s'.contacts.find? c = some contact →
        contact.connectionId = some connectionId → s.unlocked (.connection connectionId) = true) ∨
    ∃ p connectionId contactRows counted ids, a = .purgeCommit p ∧
      s.processes p = .purgeDeleted connectionId contactRows counted ids ∧ c ∈ s.contactsOf connectionId ∧
      s'.contacts.find? c = none := by
  cases stepMove_of hstep with
  | @setContact id contact contacts hfree hlink hcontacts =>
    subst hcontacts
    by_cases hc : c = id
    · subst hc
      refine .inr (.inl ⟨rfl, hfree, fun contact' connectionId hfind hconn => ?_⟩)
      cases contact with
      | none =>
        have hnone := Table.find?_erase_self s.contacts c
        rw [Option.elim_none, hnone] at hfind
        contradiction
      | some v =>
        have hput := Table.find?_put_self s.contacts c v
        rw [Option.elim_some, hput] at hfind
        obtain rfl := Option.some.inj hfind
        have hlink' : s.admitsLink (some connectionId) = true := by
          rw [← hconn]
          exact hlink
        simp only [admitsLink, Option.all_some, Bool.and_eq_true] at hlink'
        exact hlink'.2
    · left
      cases contact with
      | none => exact Table.find?_erase_ne _ hc
      | some v => exact Table.find?_put_ne _ v hc
  | @claimBulk p connectionId now claimUntil date skipped =>
    rcases claimBulkLeafForConnection_cases cfg s connectionId now claimUntil date skipped with
      heq | heq | ⟨leaf, sentToday, -, -, -, -, -, heq⟩
    all_goals
      rw [heq]
      exact .inl rfl
  | @purgeCommit p connectionId contactRows ids counted hp =>
    have hfind := Table.find?_foldl_erase (s.contactsOf connectionId) s.contacts c
    by_cases hc : c ∈ s.contactsOf connectionId
    · rw [if_pos hc] at hfind
      exact .inr (.inr ⟨p, connectionId, contactRows, counted, ids, rfl, hp, hc, hfind⟩)
    · rw [if_neg hc] at hfind
      exact .inl hfind
  | _ => exact .inl rfl

end Steps

/-! ### Well-formedness -/

def Process.rowIds : Process → List ℕ
  | .dispatching _ _ _ held => held.map (·.id)
  | .sweeping _ _ _ ids | .cancelFound _ _ ids | .cancelWritten _ _ ids | .cancelCounted _ _ ids _ => ids
  | .purgeCounted _ _ counted => counted.map (·.id)
  | .purgeDeleted _ _ counted ids => counted.map (·.id) ++ ids
  | _ => []

structure Wf (s : Tenant) : Prop where
  ids : (s.rows.map (·.id)).Nodup
  issued : ∀ r ∈ s.rows, r.id ∈ s.issued
  rowIds : ∀ p, ∀ i ∈ (s.processes p).rowIds, i ∈ s.issued
  held : ∀ p now claimUntil began held, s.processes p = .dispatching now claimUntil began held →
    ∀ h ∈ held, ∀ r ∈ s.rows, r.id = h.id → r.bulkJobId = h.bulkJobId ∧ r.contactId = h.contactId
  jobs : ∀ r ∈ s.rows, ∀ j, r.bulkJobId = some j → s.jobs j ≠ none
  exclusive : ∀ l p q, (l, p) ∈ s.locks → (l, q) ∈ s.locks → p = q
  locks : ∀ p, ∀ l ∈ (s.processes p).locks, (l, p) ∈ s.locks
  contacts : ∀ p connectionId contactRows, (s.processes p).purges = some (connectionId, contactRows) →
    ∀ c ∈ s.contactsOf connectionId, c ∈ contactRows

theorem Wf.empty (clock : ℕ → ℕ) : Wf (.empty clock) where
  ids := List.nodup_nil
  issued := fun _ hr => absurd hr List.not_mem_nil
  rowIds := fun _ _ hi => absurd hi List.not_mem_nil
  held := fun _ _ _ _ _ hp => nomatch hp
  jobs := fun _ hr => absurd hr List.not_mem_nil
  exclusive := fun _ _ _ hl => absurd hl List.not_mem_nil
  locks := fun _ _ hl => absurd hl List.not_mem_nil
  contacts := fun _ _ _ hp => nomatch hp

section Preservation

variable {cfg : BulkConfig} {s s' : Tenant} {a : ScheduledAction}

theorem JobsChange.exists_mono (h : JobsChange s a s') {j : ℕ} (hj : s.jobs j ≠ none) : s'.jobs j ≠ none := by
  rcases h j with ⟨_, _, _, _, hnone, _⟩ | heq | ⟨job, job', _, hjob', _⟩
  · exact absurd hnone hj
  · rw [heq]
    exact hj
  · rw [hjob']
    exact Option.some_ne_none job'

theorem ProcessMove.rowIds {p : ℕ} {x y : Process} (h : ProcessMove s a s' p x y) {i : ℕ} (hi : i ∈ y.rowIds) :
    i ∈ x.rowIds ∨ ∃ r ∈ s.rows, r.id = i := by
  have hrow : ∀ q : ScheduledMessage → Bool, i ∈ (s.rows.filter q).map (·.id) → ∃ r ∈ s.rows, r.id = i := by
    intro q hq
    obtain ⟨r, hr, hid⟩ := List.mem_map.mp hq
    exact ⟨r, List.mem_of_mem_filter hr, hid⟩
  cases h with
  | ended | captured | began | swept | finalizing | drained | canceling | purging =>
    exact absurd hi List.not_mem_nil
  | claimed hmem =>
    obtain ⟨h, hh, hid⟩ := List.mem_map.mp hi
    exact .inr ⟨h, hmem h hh, hid⟩
  | settled => exact .inl (List.mem_cons_of_mem _ hi)
  | sweeping hmem => exact .inr (hmem i hi)
  | cancelFound => exact .inr (hrow _ hi)
  | cancelWritten => exact .inr (hrow _ hi)
  | cancelCounted => exact .inl hi
  | purgeCounted => exact .inr (hrow _ hi)
  | purgeDeleted =>
    rcases List.mem_append.mp hi with hi | hi
    · exact .inl hi
    · exact .inr (hrow _ hi)

theorem ProcessesChange.rowIds (h : ProcessesChange s a s') {q i : ℕ} (hi : i ∈ (s'.processes q).rowIds) :
    i ∈ (s.processes q).rowIds ∨ ∃ r ∈ s.rows, r.id = i := by
  rcases h q with heq | hmove
  · rw [heq] at hi
    exact .inl hi
  · exact hmove.rowIds hi

theorem ProcessesChange.held (h : ProcessesChange s a s') {q now claimUntil : ℕ} {began : Option ℕ}
    {held : List ScheduledMessage} (hq : s'.processes q = .dispatching now claimUntil began held)
    {t : ScheduledMessage} (ht : t ∈ held) :
    (∃ began held, s.processes q = .dispatching now claimUntil began held ∧ t ∈ held) ∨ t ∈ s.rows := by
  rcases h q with heq | hmove
  · exact .inl ⟨began, held, heq ▸ hq, ht⟩
  · generalize hx : s.processes q = x at hmove
    rw [hq] at hmove
    cases hmove with
    | captured | began | swept => exact absurd ht List.not_mem_nil
    | claimed hmem => exact .inr (hmem t ht)
    | settled => exact .inl ⟨_, _, rfl, List.mem_cons_of_mem _ ht⟩

theorem LocksChange.exclusive (h : LocksChange s s')
    (hex : ∀ l p q, (l, p) ∈ s.locks → (l, q) ∈ s.locks → p = q) :
    ∀ l p q, (l, p) ∈ s'.locks → (l, q) ∈ s'.locks → p = q := by
  intro l p q hp hq
  cases h with
  | same h =>
    rw [h] at hp hq
    exact hex l p q hp hq
  | released _ h _ =>
    rw [h] at hp hq
    exact hex l p q (List.mem_of_mem_filter hp) (List.mem_of_mem_filter hq)
  | locked o ls h hfree =>
    rw [h] at hp hq
    have hnew : ∀ r, (l, r) ∈ ls.map (·, o) → r = o ∧ ∀ r', (l, r') ∉ s.locks := by
      intro r hr
      obtain ⟨l', hl', heq⟩ := List.mem_map.mp hr
      obtain ⟨rfl, rfl⟩ := Prod.mk.inj heq
      exact ⟨rfl, unlocked_iff.mp (hfree l' hl')⟩
    rcases List.mem_append.mp hp with hp | hp
    · obtain ⟨rfl, hnone⟩ := hnew p hp
      rcases List.mem_append.mp hq with hq | hq
      · exact (hnew q hq).1.symm
      · exact absurd hq (hnone q)
    · rcases List.mem_append.mp hq with hq | hq
      · exact absurd hp ((hnew q hq).2 p)
      · exact hex l p q hp hq

theorem LocksChange.keep (h : LocksChange s s') {l : Lock} {p : ℕ} (hl : (l, p) ∈ s.locks)
    (hp : s'.processes p ≠ .idle) : (l, p) ∈ s'.locks := by
  cases h with
  | same h => exact h ▸ hl
  | locked _ _ h _ =>
    rw [h]
    exact List.mem_append_right _ hl
  | released o h hidle =>
    have hne : p ≠ o := fun heq => hp (heq ▸ hidle)
    rw [h]
    exact List.mem_filter.mpr ⟨hl, by simp [hne]⟩

theorem Process.locks_idle {x : Process} {l : Lock} (h : l ∈ x.locks) : x ≠ .idle := by
  rintro rfl
  exact List.not_mem_nil h

theorem Process.purges_locks {x : Process} {connectionId : ℕ} {contactRows : List ℕ}
    (h : x.purges = some (connectionId, contactRows)) :
    .connection connectionId ∈ x.locks ∧ ∀ c ∈ contactRows, .contact c ∈ x.locks := by
  have hcontacts : ∀ c ∈ contactRows,
      Lock.contact c ∈ Lock.connection connectionId :: contactRows.map Lock.contact :=
    fun c hc => List.mem_cons_of_mem _ (List.mem_map_of_mem hc)
  cases x <;> simp only [purges, Option.some.injEq, Prod.mk.injEq, reduceCtorEq] at h
  all_goals
    obtain ⟨rfl, rfl⟩ := h
    refine ⟨List.mem_cons_self, fun c hc => ?_⟩
  · exact hcontacts c hc
  · exact hcontacts c hc
  · exact List.mem_append_left _ (hcontacts c hc)

theorem ProcessMove.purges {p connectionId : ℕ} {contactRows : List ℕ} {x y : Process}
    (h : ProcessMove s a s' p x y) (hy : y.purges = some (connectionId, contactRows)) :
    x.purges = some (connectionId, contactRows) ∨ contactRows = s.contactsOf connectionId := by
  cases h with
  | purging =>
    obtain ⟨rfl, rfl⟩ := Prod.mk.inj (Option.some.inj hy)
    exact .inr rfl
  | purgeCounted | purgeDeleted => exact .inl hy
  | _ => contradiction

namespace Wf

theorem locked_elsewhere (h : Wf s) {p : ℕ} {l : Lock} (hl : l ∈ (s.processes p).locks) :
    s.unlocked l = false := by
  rw [Bool.eq_false_iff]
  intro hfree
  exact unlocked_iff.mp hfree p (h.locks p l hl)

theorem purge_locks (h : Wf s) {p connectionId : ℕ} {contactRows : List ℕ}
    (hp : (s.processes p).purges = some (connectionId, contactRows)) :
    s.unlocked (.connection connectionId) = false ∧
      ∀ c ∈ s.contactsOf connectionId, s.unlocked (.contact c) = false := by
  obtain ⟨hconn, hcontacts⟩ := Process.purges_locks hp
  refine ⟨h.locked_elsewhere hconn, fun c hc => ?_⟩
  exact h.locked_elsewhere (hcontacts c (h.contacts p connectionId contactRows hp c hc))

theorem step (h : Wf s) (hstep : scheduledStep cfg s a = some s') : Wf s' := by
  have hrows := rows_step h.ids hstep
  have hjobs := jobs_step hstep
  have hprocesses := processes_step hstep
  obtain ⟨hlocks, hown⟩ := locks_step hstep
  have hissued : ∀ r' ∈ s'.rows, r'.id ∈ s'.issued := by
    intro r' hr'
    cases hrows with
    | moved f hmap hiss hmove =>
      rw [hmap] at hr'
      obtain ⟨r, hr, rfl⟩ := List.mem_map.mp hr'
      rw [(hmove r hr).id_eq.1, hiss]
      exact h.issued r hr
    | created new happ hiss _ _ _ =>
      rw [happ] at hr'
      rw [hiss]
      rcases List.mem_append.mp hr' with hr' | hr'
      · exact List.mem_append_right _ (h.issued r' hr')
      · exact List.mem_append_left _ (List.mem_map_of_mem hr')
    | purged _ _ hfilter hiss =>
      rw [hfilter] at hr'
      rw [hiss]
      exact h.issued r' (List.mem_of_mem_filter hr')
  refine ⟨?_, hissued, fun q i hi => ?_, fun q now claimUntil began held hq t ht r' hr' hid => ?_,
    fun r' hr' j hj => ?_, hlocks.exclusive h.exclusive, fun q l hl => ?_,
    fun q connectionId contactRows hq c hc => ?_⟩
  · cases hrows with
    | moved f hmap _ hmove =>
      have hmapid : s'.rows.map (·.id) = s.rows.map (·.id) := by
        rw [hmap, List.map_map]
        exact List.map_congr_left fun r hr => (hmove r hr).id_eq.1
      rw [hmapid]
      exact h.ids
    | created new happ _ hnodup hfresh _ =>
      rw [happ, List.map_append]
      refine List.nodup_append'.mpr ⟨h.ids, hnodup, fun i hi hi' => ?_⟩
      obtain ⟨r, hr, rfl⟩ := List.mem_map.mp hi
      obtain ⟨r', hr', hid⟩ := List.mem_map.mp hi'
      exact hfresh r' hr' (hid ▸ h.issued r hr)
    | purged _ _ hfilter _ =>
      rw [hfilter]
      exact (List.filter_sublist.map _).nodup h.ids
  · rcases hprocesses.rowIds hi with hi | ⟨r, hr, rfl⟩
    · exact hrows.issued_mono (h.rowIds q i hi)
    · exact hrows.issued_mono (h.issued r hr)
  · have hold : t.id ∈ s.issued ∧ ∀ r ∈ s.rows, r.id = t.id →
        r.bulkJobId = t.bulkJobId ∧ r.contactId = t.contactId := by
      rcases hprocesses.held hq ht with ⟨began', held', hx, ht'⟩ | ht'
      · refine ⟨h.rowIds q t.id ?_, h.held q _ _ _ _ hx t ht'⟩
        rw [hx]
        exact List.mem_map_of_mem ht'
      · refine ⟨h.issued t ht', fun r hr hid => ?_⟩
        obtain rfl := eq_of_id h.ids hr ht' hid
        exact ⟨rfl, rfl⟩
    rcases hrows.of_mem hr' with ⟨r, hr, hmove⟩ | ⟨hnew, -⟩
    · obtain ⟨hid', hjob', hcontact', -⟩ := hmove.id_eq
      rw [hjob', hcontact']
      exact hold.2 r hr (hid'.symm.trans hid)
    · exact absurd (hid ▸ hold.1) hnew
  · rcases hrows.of_mem hr' with ⟨r, hr, hmove⟩ | ⟨-, hnew⟩
    · rw [hmove.id_eq.2.1] at hj
      exact hjobs.exists_mono (h.jobs r hr j hj)
    · cases hnew with
      | message ha => contradiction
      | leaf ha hjob hmem =>
        obtain rfl := Option.some.inj hj
        rcases hjobs _ with ⟨_, _, _, _, _, hset⟩ | heq | ⟨job, job', hsome, _, _⟩
        · rw [hset]
          exact Option.some_ne_none _
        · subst ha
          simp only [scheduledStep] at hstep
          split_ifs at hstep
          obtain rfl := Option.some.inj hstep
          show Function.update s.jobs _ _ _ ≠ none
          rw [Function.update_self]
          exact Option.some_ne_none _
        · rw [hjob] at hsome
          contradiction
  · have hnotidle := Process.locks_idle hl
    rcases hown q l hl with hold | hnew
    · exact hlocks.keep (h.locks q l hold) hnotidle
    · exact hnew
  · obtain ⟨contact, hfind, hconn⟩ := mem_contactsOf.mp hc
    have hbefore : c ∈ s.contactsOf connectionId ∨ s'.processes = s.processes ∧
        s.unlocked (.connection connectionId) = true := by
      rcases contacts_step hstep c with heq | ⟨hproc, -, hlink⟩ | ⟨_, _, _, _, _, _, _, _, hnone⟩
      · exact .inl (mem_contactsOf.mpr ⟨contact, heq ▸ hfind, hconn⟩)
      · exact .inr ⟨hproc, hlink contact connectionId hfind hconn⟩
      · rw [hnone] at hfind
        contradiction
    rcases hbefore with hbefore | ⟨hproc, hfree⟩
    · rcases hprocesses q with heq | hmove
      · rw [heq] at hq
        exact h.contacts q connectionId contactRows hq c hbefore
      · rcases hmove.purges hq with hq | rfl
        · exact h.contacts q connectionId contactRows hq c hbefore
        · exact hbefore
    · rw [hproc] at hq
      rw [(h.purge_locks hq).1] at hfree
      contradiction

end Wf

end Preservation

end TeamInbox.Broadcast
