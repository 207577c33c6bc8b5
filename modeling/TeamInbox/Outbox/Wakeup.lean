import TeamInbox.Outbox.DispatchMarker
import TeamInbox.Outbox.RecipientOrder

/-!
# TeamInbox.Outbox.Wakeup — no due command without a due marker

A marker is due as early as every committed row that waits, but for what the last settlement or release put
off (`covered`).  Two facts carry this.  Whoever is about to commit a row holds a version of the marker that
is due at the time of the statement (`marked`), and such a row is never scheduled before its statement
(`scheduled`).  And what a replica has read is right as long as the generation it read before stands
(`summarized`), since a commit of a waiting row moves the generation.
-/

namespace TeamInbox.Outbox

open Lib

/-! ### Statements schedule forward -/

theorem OutboxWrite.change_scheduled {w : OutboxWrite} {time : ℕ} {old : Option OutboxRow} {new : OutboxRow}
    (h : w.change time old = some (some new)) (hwaiting : new.status.waiting = true) :
    time ≤ new.nextAttemptAt := by
  have hlease := lt_nextLease time
  unfold OutboxWrite.change at h
  split at h
  · simp only [Option.some.injEq] at h
    rw [← h]
  · split_ifs at h
    simp only [Option.some.injEq] at h
    rw [← h]
    exact le_of_lt hlease
  · split_ifs at h
    simp only [Option.some.injEq] at h
    rw [← h]
    exact le_of_lt hlease
  · split_ifs at h
    simp only [Option.some.injEq] at h
    rw [← h] at hwaiting ⊢
    unfold OutboxRow.outcome at hwaiting ⊢
    split_ifs at hwaiting ⊢
    · contradiction
    · contradiction
    · exact Nat.le_add_right _ _
  · simp at h
  · contradiction

theorem OutboxWrite.marks_of_waiting {old : Option OutboxRow} {new : OutboxRow}
    (h : new.status.waiting = true) : OutboxWrite.marks old (some new) = true := by
  cases old with
  | none => exact h
  | some r => rfl

/-! ### Reading -/

theorem earliestAttempt_le {rows : Table OutboxId OutboxRow} {id : OutboxId} {r : OutboxRow}
    (hr : rows.find? id = some r) (hwaiting : r.status.waiting = true) :
    ∃ due, earliestAttempt rows = some due ∧ due ≤ r.nextAttemptAt := by
  have hmem : r.nextAttemptAt ∈ (rows.entries.filter fun e => e.2.status.waiting).map (·.2.nextAttemptAt) := by
    refine List.mem_map.mpr ⟨(id, r), List.mem_filter.mpr ⟨Table.mem_entries.mpr hr, hwaiting⟩, rfl⟩
  unfold earliestAttempt
  cases hmin : ((rows.entries.filter fun e => e.2.status.waiting).map (·.2.nextAttemptAt)).min? with
  | none =>
    rw [List.min?_eq_none_iff.mp hmin] at hmem
    exact absurd hmem List.not_mem_nil
  | some due => exact ⟨due, rfl, (List.min?_eq_some_iff.mp hmin).2 _ hmem⟩

theorem least_le_right (a : Option ℕ) (b : ℕ) : ∃ due, least a (some b) = some due ∧ due ≤ b := by
  cases a with
  | none => exact ⟨b, rfl, le_refl _⟩
  | some a => exact ⟨min a b, rfl, min_le_right a b⟩

theorem least_le_left {a : ℕ} (b : ℕ) : ∃ due, least (some a) (some b) = some due ∧ due ≤ a :=
  ⟨min a b, rfl, min_le_left a b⟩

theorem find?_writtenRows (s : DispatchState) (tx company : ℕ) (id : OutboxId) :
    (s.writtenRows tx company).find? id = s.visible tx company id := by
  unfold DispatchState.writtenRows DispatchState.visible
  induction s.writes with
  | nil => rfl
  | cons w l ih =>
    by_cases hw : w.tx = tx ∧ w.company = company
    · rw [List.filter_cons_of_pos (by simpa using hw), List.foldr_cons]
      by_cases hid : w.id = id
      · rw [List.find?_cons_of_pos (by simp [hw, hid])]
        cases hrow : w.row with
        | none =>
          rw [← hid, Table.find?_erase_self]
          exact hrow.symm
        | some r =>
          rw [← hid, Table.find?_put_self]
          exact hrow.symm
      · rw [List.find?_cons_of_neg (by simp [hid]), ← ih]
        cases hrow : w.row with
        | none => rw [Table.find?_erase_ne _ (Ne.symm hid)]
        | some r => rw [Table.find?_put_ne _ _ (Ne.symm hid)]
    · rw [List.filter_cons_of_neg (by simpa using hw), ih,
        List.find?_cons_of_neg (by simpa using fun h1 h2 => absurd ⟨h1, h2⟩ hw)]

/-! ### Versions of a marker -/

/-- The version of a writer is a later generation, due as early. -/
def Ahead (old : Option Marker) (new : Marker) : Prop :=
  ∀ m, old = some m → m.generation < new.generation ∧
    ∀ due, m.dueAt = some due → ∃ due', new.dueAt = some due' ∧ due' ≤ due

namespace Ahead

theorem trans {old : Option Marker} {m m' : Marker} (h : Ahead old m) (h' : Ahead (some m) m') :
    Ahead old m' := by
  intro m₀ hold
  obtain ⟨hgen, hdue⟩ := h m₀ hold
  obtain ⟨hgen', hdue'⟩ := h' m rfl
  refine ⟨hgen.trans hgen', fun due hd => ?_⟩
  obtain ⟨due₁, hd₁, hle₁⟩ := hdue due hd
  obtain ⟨due₂, hd₂, hle₂⟩ := hdue' due₁ hd₁
  exact ⟨due₂, hd₂, hle₂.trans hle₁⟩

theorem markReady (time : ℕ) (old : Option Marker) : Ahead old (markReady time old) := by
  rintro m rfl
  refine ⟨Nat.lt_succ_self _, fun due hd => ?_⟩
  rw [Outbox.markReady, hd]
  exact least_le_left time

theorem recoverReady (due : ℕ) (old : Option Marker) : Ahead old (recoverReady due old) := by
  rintro m rfl
  refine ⟨Nat.lt_succ_self _, fun due' hd => ?_⟩
  rw [Outbox.recoverReady, hd]
  exact least_le_left due

end Ahead

theorem markReady_due (time : ℕ) (old : Option Marker) :
    ∃ due, (markReady time old).dueAt = some due ∧ due ≤ time := by
  cases old with
  | none => exact ⟨time, rfl, le_refl _⟩
  | some m => exact least_le_right m.dueAt time

/-! ### The invariant of one company -/

section Company

variable {c : ℕ} {s s' : DispatchState}

/-- The marker may be due later than the row by a settlement or a release. -/
def Within (s : DispatchState) (c due attempt : ℕ) : Prop :=
  due ≤ attempt ∨ (∃ t, s.lastSettle c = some t ∧ due ≤ t) ∨
    ∃ t, s.lastRelease c = some t ∧ due ≤ t + releaseDelay

/-- The marker is due for every committed row that waits. -/
def Awake (c : ℕ) (s : DispatchState) : Prop :=
  ∀ id r, (s.rows c).find? id = some r → r.status.waiting = true →
    ∃ m due, s.marker c = some m ∧ m.dueAt = some due ∧ Within s c due r.nextAttemptAt

/-- `due` is not after any row that waits. -/
def Summarizes (due : Option ℕ) (rows : Table OutboxId OutboxRow) : Prop :=
  ∀ id r, rows.find? id = some r → r.status.waiting = true → ∃ t, due = some t ∧ t ≤ r.nextAttemptAt

/-- What a replica has read of the company is right while its generation stands. -/
def ReadsRight (c : ℕ) (s : DispatchState) : WakeProcess → Prop
  | .counted company _ generation =>
    company = c → ∃ m, s.marker c = some m ∧ generation ≤ m.generation
  | .summarized company _ generation due =>
    company = c → ∃ m, s.marker c = some m ∧ generation ≤ m.generation ∧
      (m.generation = generation → Summarizes due (s.rows c))
  | _ => True

structure WakeInv (c : ℕ) (s : DispatchState) : Prop where
  active : s.active c = true
  covered : Awake c s
  scheduled : ∀ w ∈ s.writes, w.company = c → ∀ r, w.row = some r → r.status.waiting = true →
    w.time ≤ r.nextAttemptAt
  marked : ∀ w ∈ s.writes, w.company = c → ∀ r, w.row = some r → r.status.waiting = true →
    (w.tx, c, w.time) ∈ s.unmarked ∨
      ∃ m due, s.held c = some (w.tx, some m) ∧ m.dueAt = some due ∧ due ≤ w.time
  held : ∀ tx v, s.held c = some (tx, v) → ∃ m, v = some m ∧ Ahead (s.marker c) m
  reads : ∀ p, ReadsRight c s (s.processes p)

theorem ReadsRight.mono {x : WakeProcess} (h : ReadsRight c s x)
    (hm : ∀ m, s.marker c = some m → ∃ m', s'.marker c = some m' ∧ (m.generation < m'.generation ∨
      m'.generation = m.generation ∧ ∀ id r, (s'.rows c).find? id = some r → r.status.waiting = true →
        (s.rows c).find? id = some r)) : ReadsRight c s' x := by
  cases x with
  | idle => trivial
  | dispatching company token => trivial
  | counted company token generation =>
    intro hc
    obtain ⟨m, hmarker, hle⟩ := h hc
    obtain ⟨m', hmarker', hlt | ⟨heq, -⟩⟩ := hm m hmarker
    · exact ⟨m', hmarker', by omega⟩
    · exact ⟨m', hmarker', by omega⟩
  | summarized company token generation due =>
    intro hc
    obtain ⟨m, hmarker, hle, hsum⟩ := h hc
    obtain ⟨m', hmarker', hlt | ⟨heq, hrows⟩⟩ := hm m hmarker
    · exact ⟨m', hmarker', by omega, fun h => by omega⟩
    · refine ⟨m', hmarker', by omega, fun hgen id r hr hw => ?_⟩
      exact hsum (by omega) id r (hrows id r hr hw) hw

namespace WakeInv

theorem empty (c : ℕ) : WakeInv c .empty :=
  ⟨rfl, fun _ _ h => (nomatch h), fun _ h => (nomatch h), fun _ h => (nomatch h),
    fun _ _ h => (nomatch h), fun _ => trivial⟩

theorem of_frame (h : WakeInv c s) (hactive : s'.active c = true) (hrows : s'.rows = s.rows)
    (hmarker : s'.marker = s.marker) (hwrites : s'.writes = s.writes) (hunmarked : s'.unmarked = s.unmarked)
    (hheld : s'.held = s.held) (hsettle : s'.lastSettle = s.lastSettle)
    (hrelease : s'.lastRelease = s.lastRelease)
    (hreads : ∀ p, s'.processes p = s.processes p ∨ ReadsRight c s (s'.processes p)) : WakeInv c s' := by
  refine ⟨hactive, ?_, hwrites ▸ h.scheduled, ?_, ?_, fun p => ?_⟩
  · unfold Awake Within
    rw [hrows, hmarker, hsettle, hrelease]
    exact h.covered
  · rw [hwrites, hunmarked, hheld]
    exact h.marked
  · rw [hheld, hmarker]
    exact h.held
  · have hread : ReadsRight c s (s'.processes p) := by
      rcases hreads p with heq | hread
      · rw [heq]
        exact h.reads p
      · exact hread
    refine hread.mono fun m hm => ⟨m, hmarker ▸ hm, .inr ⟨rfl, fun id r hr _ => ?_⟩⟩
    rw [← hrows]
    exact hr

theorem setProcess (h : WakeInv c s) {p : ℕ} {x : WakeProcess} (hx : ReadsRight c s x) :
    WakeInv c (s.setProcess p x) := by
  refine h.of_frame h.active rfl rfl rfl rfl rfl rfl rfl fun p' => ?_
  by_cases hp : p' = p
  · right
    subst hp
    simpa [DispatchState.setProcess] using hx
  · left
    simp [DispatchState.setProcess, hp]

theorem write (h : WakeInv c s) {tx company time : ℕ} {w : OutboxWrite} {row : Option OutboxRow}
    (hchange : w.change time (s.visible tx company w.id) = some row) :
    WakeInv c { s with
      writes := ⟨tx, company, w.id, row, time⟩ :: s.writes
      unmarked := if OutboxWrite.marks (s.visible tx company w.id) row then (tx, company, time) :: s.unmarked
        else s.unmarked } := by
  refine ⟨h.active, h.covered, ?_, ?_, h.held, h.reads⟩
  · intro w' hw' hc r hr hwaiting
    rcases List.mem_cons.mp hw' with rfl | hw'
    · subst hr
      exact OutboxWrite.change_scheduled hchange hwaiting
    · exact h.scheduled w' hw' hc r hr hwaiting
  · intro w' hw' hc r hr hwaiting
    rcases List.mem_cons.mp hw' with rfl | hw'
    · left
      subst hr hc
      show _ ∈ if _ then _ else _
      rw [if_pos (OutboxWrite.marks_of_waiting hwaiting)]
      exact List.mem_cons_self
    · rcases h.marked w' hw' hc r hr hwaiting with hunmarked | hheld
      · left
        show _ ∈ if _ then _ else _
        split_ifs
        · exact List.mem_cons_of_mem _ hunmarked
        · exact hunmarked
      · exact .inr hheld

theorem version_ahead (h : WakeInv c s) {m : Marker} (hm : Ahead (s.version c) m) : Ahead (s.marker c) m := by
  unfold DispatchState.version at hm
  cases hheld : s.held c with
  | none =>
    rw [hheld] at hm
    exact hm
  | some p =>
    obtain ⟨m', hv, hahead⟩ := h.held p.1 p.2 hheld
    rw [hheld] at hm
    exact hahead.trans (hv ▸ hm)

theorem hold_other (h : WakeInv c s) {tx company : ℕ} {v : Option Marker} (hne : company ≠ c) :
    WakeInv c (s.hold tx company v) := by
  have hsame : (s.hold tx company v).held c = s.held c := Function.update_of_ne (Ne.symm hne) _ _
  refine ⟨h.active, h.covered, h.scheduled, ?_, ?_, h.reads⟩
  · rw [hsame]
    exact h.marked
  · rw [hsame]
    exact h.held

theorem hold (h : WakeInv c s) {tx company : ℕ} {m : Marker} (hfree : s.markerFree tx company = true)
    (hm : Ahead (s.version company) m) : WakeInv c (s.hold tx company (some m)) := by
  by_cases hc : company = c
  · subst hc
    have hheld : (s.hold tx company (some m)).held company = some (tx, some m) := Function.update_self _ _ _
    refine ⟨h.active, h.covered, h.scheduled, ?_, ?_, h.reads⟩
    · intro w hw hc r hr hwaiting
      rcases h.marked w hw hc r hr hwaiting with hunmarked | ⟨m₀, due, hold, hdue, hle⟩
      · exact .inl hunmarked
      · have htx : w.tx = tx := by simpa [DispatchState.markerFree, hold] using hfree
        have hv : s.version company = some m₀ := by rw [DispatchState.version, hold]
        obtain ⟨due', hdue', hle'⟩ := (hm m₀ hv).2 due hdue
        exact .inr ⟨m, due', htx ▸ hheld, hdue', hle'.trans hle⟩
    · intro tx' v hv
      rw [hheld] at hv
      obtain ⟨-, rfl⟩ := Prod.mk.inj (Option.some.inj hv)
      exact ⟨m, rfl, h.version_ahead hm⟩
  · exact h.hold_other hc

theorem unmark (h : WakeInv c s) {tx company time : ℕ}
    (hdue : company = c → ∃ m due, s.held c = some (tx, some m) ∧ m.dueAt = some due ∧ due ≤ time) :
    WakeInv c { s with unmarked := s.unmarked.erase (tx, company, time) } := by
  refine ⟨h.active, h.covered, h.scheduled, fun w hw hc r hr hwaiting => ?_, h.held, h.reads⟩
  rcases h.marked w hw hc r hr hwaiting with hunmarked | hheld
  · by_cases heq : (w.tx, c, w.time) = (tx, company, time)
    · obtain ⟨rfl, rfl, rfl⟩ : w.tx = tx ∧ c = company ∧ w.time = time := by simpa using heq
      exact .inr (hdue rfl)
    · exact .inl ((List.mem_erase_of_ne heq).mpr hunmarked)
  · exact .inr hheld

theorem mark (h : WakeInv c s) {tx company time : ℕ} (hfree : s.markerFree tx company = true) :
    WakeInv c ({ s with unmarked := s.unmarked.erase (tx, company, time) }.hold tx company
      (some (markReady time (s.version company)))) := by
  have hhold := h.hold hfree (Ahead.markReady time (s.version company))
  refine hhold.unmark fun hc => ?_
  obtain ⟨due, hdue, hle⟩ := markReady_due time (s.version company)
  subst hc
  exact ⟨_, due, Function.update_self _ _ _, hdue, hle⟩

theorem without (h : WakeInv c s) (tx : ℕ) : WakeInv c (s.without tx) := by
  have hkeep : ∀ tx' v, s.held c = some (tx', v) → tx' ≠ tx →
      (s.without tx).held c = some (tx', v) := by
    intro tx' v hv hne
    have hno : s.holds tx c = false := by simpa [DispatchState.holds, hv] using hne
    show (if s.holds tx c then none else s.held c) = _
    rw [hno, hv]
    rfl
  refine ⟨h.active, h.covered, fun w hw => h.scheduled w (List.mem_of_mem_filter hw), ?_, ?_, h.reads⟩
  · intro w hw hc r hr hwaiting
    obtain ⟨hw, hne⟩ := List.mem_filter.mp hw
    have htx : w.tx ≠ tx := by simpa using hne
    rcases h.marked w hw hc r hr hwaiting with hunmarked | ⟨m, due, hold, hdue⟩
    · left
      refine List.mem_filter.mpr ⟨hunmarked, ?_⟩
      simpa using htx
    · exact .inr ⟨m, due, hkeep _ _ hold htx, hdue⟩
  · intro tx' v hv
    change (if s.holds tx c then none else s.held c) = _ at hv
    split_ifs at hv
    exact h.held tx' v hv

theorem committed_row (h : WakeInv c s) {tx : ℕ}
    (hmarked : (s.unmarked.any fun u => decide (u.1 = tx)) = false) {id : OutboxId} {r : OutboxRow}
    (hr : (s.writtenRows tx c).find? id = some r) (hwaiting : r.status.waiting = true) :
    (s.rows c).find? id = some r ∨
      ∃ m due, s.held c = some (tx, some m) ∧ m.dueAt = some due ∧ due ≤ r.nextAttemptAt := by
  rw [find?_writtenRows, DispatchState.visible] at hr
  cases hfind : s.writes.find? fun w => decide (w.tx = tx ∧ w.company = c ∧ w.id = id) with
  | none =>
    rw [hfind] at hr
    exact .inl hr
  | some w =>
    rw [hfind] at hr
    have hfound := List.find?_some hfind
    simp only [decide_eq_true_eq] at hfound
    obtain ⟨rfl, hc, -⟩ := hfound
    have hw := List.mem_of_find?_eq_some hfind
    right
    rcases h.marked w hw hc r hr hwaiting with hunmarked | ⟨m, due, hold, hdue, hle⟩
    · have hnone := List.any_eq_false.mp hmarked _ hunmarked
      simp at hnone
    · exact ⟨m, due, hold, hdue, hle.trans (h.scheduled w hw hc r hr hwaiting)⟩

theorem commit (h : WakeInv c s) {tx : ℕ}
    (hmarked : (s.unmarked.any fun u => decide (u.1 = tx)) = false) :
    WakeInv c { s.without tx with
      rows := fun company => s.writtenRows tx company
      marker := fun company => if s.holds tx company then s.version company else s.marker company } := by
  have hwithout := h.without tx
  have hcommitted : ∀ {id : OutboxId} {r : OutboxRow}, (s.writtenRows tx c).find? id = some r → r.status.waiting = true →
      (s.rows c).find? id = some r ∨
        ∃ m due, s.held c = some (tx, some m) ∧ m.dueAt = some due ∧ due ≤ r.nextAttemptAt := h.committed_row hmarked
  cases hholds : s.holds tx c with
  | false =>
    have hmarker : (if s.holds tx c then s.version c else s.marker c) = s.marker c := by
      rw [hholds]
      rfl
    have hrows : ∀ id r, (s.writtenRows tx c).find? id = some r → r.status.waiting = true →
        (s.rows c).find? id = some r := by
      intro id r hr hwaiting
      rcases hcommitted hr hwaiting with hold | ⟨m, due, hold, -⟩
      · exact hold
      · simp [DispatchState.holds, hold] at hholds
    refine ⟨h.active, fun id r hr hwaiting => ?_, hwithout.scheduled, hwithout.marked,
      fun tx' v hv => ?_, fun p => ?_⟩
    · show ∃ m due, (if s.holds tx c then s.version c else s.marker c) = some m ∧ _
      rw [hmarker]
      exact h.covered id r (hrows id r hr hwaiting) hwaiting
    · show ∃ m, v = some m ∧ Ahead (if s.holds tx c then s.version c else s.marker c) m
      rw [hmarker]
      exact hwithout.held tx' v hv
    · exact (h.reads p).mono fun m hm => ⟨m, hmarker.trans hm, .inr ⟨rfl, hrows⟩⟩
  | true =>
    obtain ⟨v, hheld⟩ : ∃ v, s.held c = some (tx, v) := by
      unfold DispatchState.holds at hholds
      cases hheld : s.held c with
      | none => simp [hheld] at hholds
      | some p =>
        have htx : p.1 = tx := by simpa [hheld] using hholds
        exact ⟨p.2, by rw [← htx]⟩
    obtain ⟨m', rfl, hahead⟩ := h.held tx v hheld
    have hmarker : (if s.holds tx c then s.version c else s.marker c) = some m' := by
      rw [hholds, if_pos rfl, DispatchState.version, hheld]
    have hfree : (s.without tx).held c = none := by
      show (if s.holds tx c then none else s.held c) = none
      rw [hholds]
      rfl
    refine ⟨h.active, fun id r hr hwaiting => ?_, hwithout.scheduled, hwithout.marked,
      fun tx' v hv => ?_, fun p => ?_⟩
    · rcases hcommitted hr hwaiting with hold | ⟨m₁, due, hold, hdue, hle⟩
      · obtain ⟨m, due, hm, hdue, hwithin⟩ := h.covered id r hold hwaiting
        obtain ⟨due', hdue', hle⟩ := (hahead m hm).2 due hdue
        refine ⟨m', due', hmarker, hdue', ?_⟩
        rcases hwithin with hw | ⟨t, ht, hw⟩ | ⟨t, ht, hw⟩
        · exact .inl (hle.trans hw)
        · exact .inr (.inl ⟨t, ht, hle.trans hw⟩)
        · exact .inr (.inr ⟨t, ht, hle.trans hw⟩)
      · rw [hheld] at hold
        obtain rfl : m' = m₁ := by simpa using hold
        exact ⟨m', due, hmarker, hdue, .inl hle⟩
    · rw [show (s.without tx).held c = none from hfree] at hv
      contradiction
    · exact (h.reads p).mono fun m hm => ⟨m', hmarker, .inl (hahead m hm).1⟩

theorem setMarker (h : WakeInv c s) {company : ℕ} {m m' : Marker} (hm : s.marker company = some m)
    (hfree : s.held company = none) (hgen : m'.generation = m.generation) {tokens : ℕ}
    {settle release : ℕ → Option ℕ}
    (hother : company ≠ c → settle c = s.lastSettle c ∧ release c = s.lastRelease c)
    (hdue : company = c → ∀ id r, (s.rows c).find? id = some r → r.status.waiting = true →
      ∃ due, m'.dueAt = some due ∧ (due ≤ r.nextAttemptAt ∨ (∃ t, settle c = some t ∧ due ≤ t) ∨
        ∃ t, release c = some t ∧ due ≤ t + releaseDelay)) :
    WakeInv c ({ s with
      tokens := tokens
      lastSettle := settle
      lastRelease := release }.setMarker company m') := by
  by_cases hc : company = c
  · subst hc
    have hmarker : Function.update s.marker company (some m') company = some m' := Function.update_self _ _ _
    refine ⟨h.active, fun id r hr hwaiting => ?_, h.scheduled, h.marked, fun tx v hv => ?_, fun p => ?_⟩
    · obtain ⟨due, hd, hwithin⟩ := hdue rfl id r hr hwaiting
      exact ⟨m', due, hmarker, hd, hwithin⟩
    · rw [show s.held company = some (tx, v) from hv] at hfree
      contradiction
    · refine (h.reads p).mono fun m₀ hm₀ => ⟨m', hmarker, .inr ⟨?_, fun _ _ hr _ => hr⟩⟩
      rw [hm] at hm₀
      rw [hgen, Option.some.inj hm₀]
  · have hmarker : Function.update s.marker company (some m') c = s.marker c :=
      Function.update_of_ne (Ne.symm hc) _ _
    obtain ⟨hsettle, hrelease⟩ := hother hc
    refine ⟨h.active, fun id r hr hwaiting => ?_, h.scheduled, h.marked, fun tx v hv => ?_, fun p => ?_⟩
    · obtain ⟨m₀, due, hm₀, hd, hwithin⟩ := h.covered id r hr hwaiting
      refine ⟨m₀, due, hmarker.trans hm₀, hd, ?_⟩
      show _ ∨ (∃ t, settle c = _ ∧ _) ∨ ∃ t, release c = _ ∧ _
      rw [hsettle, hrelease]
      exact hwithin
    · obtain ⟨m₀, hv, hahead⟩ := h.held tx v hv
      refine ⟨m₀, hv, fun m₁ hm₁ => hahead m₁ ?_⟩
      exact hmarker.symm.trans hm₁
    · exact (h.reads p).mono fun m₀ hm₀ => ⟨m₀, hmarker.trans hm₀, .inr ⟨rfl, fun _ _ hr _ => hr⟩⟩

theorem claim (h : WakeInv c s) {company : ℕ} {m : Marker} (hm : s.marker company = some m)
    (hfree : s.held company = none) :
    WakeInv c ({ s with tokens := s.tokens + 1 }.setMarker company (m.claimedBy s.tokens s.now)) := by
  have hgen : (m.claimedBy s.tokens s.now).generation = m.generation := rfl
  refine h.setMarker hm hfree hgen (fun _ => ⟨rfl, rfl⟩) fun hc id r hr hwaiting => ?_
  subst hc
  obtain ⟨m₀, due, hm₀, hdue, hwithin⟩ := h.covered id r hr hwaiting
  obtain rfl : m = m₀ := by simpa [hm] using hm₀
  exact ⟨due, hdue, hwithin⟩

theorem settle (h : WakeInv c s) {p company token generation time : ℕ} {due : Option ℕ} {m : Marker}
    (hp : s.processes p = .summarized company token generation due) (hm : s.marker company = some m)
    (hfree : s.held company = none) :
    WakeInv c ({ s with lastSettle := Function.update s.lastSettle company (some time) }.setMarker company
      (m.settled generation time due)) := by
  have hsame : (m.settled generation time due).generation = m.generation := rfl
  refine h.setMarker hm hfree hsame (fun hc => ⟨Function.update_of_ne (Ne.symm hc) _ _, rfl⟩)
    fun hc id r hr hwaiting => ?_
  subst hc
  have htime : Function.update s.lastSettle company (some time) company = some time :=
    Function.update_self _ _ _
  have hread := h.reads p
  rw [hp] at hread
  obtain ⟨m₀, hm₀, -, hsum⟩ := hread rfl
  obtain rfl : m = m₀ := by simpa [hm] using hm₀
  by_cases hgen : m.generation = generation
  · obtain ⟨t, rfl, hle⟩ := hsum hgen id r hr hwaiting
    refine ⟨max t time, by simp [Marker.settled, hgen], ?_⟩
    rcases le_total t time with ht | ht
    · exact .inr (.inl ⟨time, htime, by omega⟩)
    · exact .inl (by omega)
  · exact ⟨time, by simp [Marker.settled, hgen], .inr (.inl ⟨time, htime, le_refl _⟩)⟩

theorem release (h : WakeInv c s) {company time : ℕ} {m : Marker} (hm : s.marker company = some m)
    (hfree : s.held company = none) :
    WakeInv c ({ s with lastRelease := Function.update s.lastRelease company (some time) }.setMarker company
      (m.released time)) := by
  have hsame : (m.released time).generation = m.generation := rfl
  refine h.setMarker hm hfree hsame (fun hc => ⟨rfl, Function.update_of_ne (Ne.symm hc) _ _⟩)
    fun hc id r hr hwaiting => ?_
  subst hc
  exact ⟨time + releaseDelay, rfl, .inr (.inr ⟨time, Function.update_self _ _ _, le_refl _⟩)⟩

theorem summary (h : WakeInv c s) {p company token generation : ℕ}
    (hp : s.processes p = .counted company token generation) :
    ReadsRight c s (.summarized company token generation
      ((earliestAttempt (s.rows company)).map fun t => t / 1000 * 1000)) := by
  intro hc
  have hread := h.reads p
  rw [hp] at hread
  obtain ⟨m, hm, hle⟩ := hread hc
  subst hc
  refine ⟨m, hm, hle, fun _ id r hr hwaiting => ?_⟩
  obtain ⟨due, hdue, hle⟩ := earliestAttempt_le hr hwaiting
  refine ⟨due / 1000 * 1000, by rw [hdue]; rfl, ?_⟩
  omega

theorem released (h : WakeInv c s) {company time : ℕ} (token : ℕ)
    (hstep : (if time ≤ s.now ∧ (s.held company).isNone then
      match s.claimed company token with
      | some m =>
        some (({ s with lastRelease := Function.update s.lastRelease company (some time) }.setMarker company
          (m.released time)).setProcess p .idle)
      | none => some (s.setProcess p .idle)
      else none) = some s') : WakeInv c s' := by
  split_ifs at hstep with hguard
  cases hm : s.claimed company token with
  | some m =>
    rw [hm] at hstep
    obtain rfl := Option.some.inj hstep
    have hmarker := (Option.filter_eq_some_iff.mp hm).1
    exact (h.release hmarker (Option.isNone_iff_eq_none.mp hguard.2)).setProcess trivial
  | none =>
    rw [hm] at hstep
    obtain rfl := Option.some.inj hstep
    exact h.setProcess trivial

theorem step {a : DispatchAction} (h : WakeInv c s) (hactive : a ≠ .setActive c false)
    (hstep : dispatchStep s a = some s') : WakeInv c s' := by
  cases a with
  | tick duration =>
    obtain rfl := Option.some.inj hstep
    exact h.of_frame h.active rfl rfl rfl rfl rfl rfl rfl fun p => .inl rfl
  | setActive company active =>
    obtain rfl := Option.some.inj hstep
    refine h.of_frame ?_ rfl rfl rfl rfl rfl rfl rfl fun p => .inl rfl
    by_cases hc : c = company
    · subst hc
      have htrue : active = true := by
        cases active with
        | true => rfl
        | false => exact absurd rfl hactive
      exact (Function.update_self _ _ _).trans htrue
    · exact (Function.update_of_ne hc _ _).trans h.active
  | write tx company w time =>
    simp only [dispatchStep] at hstep
    split_ifs at hstep
    obtain ⟨row, hchange, rfl⟩ := Option.map_eq_some_iff.mp hstep
    exact h.write hchange
  | mark tx company time =>
    simp only [dispatchStep] at hstep
    split_ifs at hstep with hguard
    obtain rfl := Option.some.inj hstep
    exact h.mark hguard.2
  | commit tx =>
    simp only [dispatchStep] at hstep
    split_ifs at hstep with hmarked
    obtain rfl := Option.some.inj hstep
    exact h.commit (Bool.eq_false_iff.mpr hmarked)
  | rollback tx =>
    obtain rfl := Option.some.inj hstep
    exact h.without tx
  | claim p company =>
    simp only [dispatchStep] at hstep
    split at hstep
    · rename_i m hp hm hfree
      split_ifs at hstep
      obtain rfl := Option.some.inj hstep
      exact (h.claim hm hfree).setProcess trivial
    · contradiction
  | readGeneration p =>
    simp only [dispatchStep] at hstep
    split at hstep
    · rename_i company token hp
      cases hm : s.claimed company token with
      | some m =>
        rw [hm] at hstep
        obtain rfl := Option.some.inj hstep
        refine h.setProcess fun hc => ⟨m, ?_, le_refl _⟩
        exact hc ▸ (Option.filter_eq_some_iff.mp hm).1
      | none =>
        rw [hm] at hstep
        obtain rfl := Option.some.inj hstep
        exact h.setProcess trivial
    · contradiction
  | readSummary p =>
    simp only [dispatchStep] at hstep
    split at hstep
    · rename_i company token generation hp
      obtain rfl := Option.some.inj hstep
      exact h.setProcess (h.summary hp)
    · contradiction
  | settle p time =>
    simp only [dispatchStep] at hstep
    split at hstep
    · rename_i company token generation due hp
      split_ifs at hstep with hguard
      cases hm : s.claimed company token with
      | some m =>
        rw [hm] at hstep
        obtain rfl := Option.some.inj hstep
        have hmarker := (Option.filter_eq_some_iff.mp hm).1
        exact (h.settle hp hmarker (Option.isNone_iff_eq_none.mp hguard.2)).setProcess trivial
      | none =>
        rw [hm] at hstep
        obtain rfl := Option.some.inj hstep
        exact h.setProcess trivial
    · contradiction
  | release p time =>
    simp only [dispatchStep] at hstep
    split at hstep
    · exact h.released _ hstep
    · exact h.released _ hstep
    · exact h.released _ hstep
    · contradiction
  | crash p =>
    obtain rfl := Option.some.inj hstep
    exact h.setProcess trivial
  | recoverRead tx company =>
    simp only [dispatchStep] at hstep
    split_ifs at hstep
    split at hstep
    · obtain rfl := Option.some.inj hstep
      exact h.of_frame h.active rfl rfl rfl rfl rfl rfl rfl fun p => .inl rfl
    · exact Option.some.inj hstep ▸ h
  | recoverMark tx company due =>
    simp only [dispatchStep] at hstep
    split_ifs at hstep with hguard
    obtain rfl := Option.some.inj hstep
    exact h.hold hguard.2 (Ahead.recoverReady due (s.version company))
  | recoverDelete tx company =>
    simp only [dispatchStep] at hstep
    split_ifs at hstep with hguard
    obtain rfl := Option.some.inj hstep
    refine h.hold_other fun hc => ?_
    rw [hc, h.active] at hguard
    exact absurd hguard.1 (by decide)

end WakeInv

end Company

/-- **No lost wakeup.**  Of a company that stays active every committed row that waits finds a marker that is
due by the attempt, by the last settlement or five seconds after the last release, whether a claim is in
force or not. -/
theorem no_lost_wakeup (c : ℕ) (as : List DispatchAction) (hactive : ∀ a ∈ as, a ≠ .setActive c false) :
    Always dispatchStep (Awake c) .empty as := by
  have hmeets : Meets dispatchStep (fun _ a => a ≠ .setActive c false) .empty as :=
    meets_of_actions hactive
  have hrun := always_of_meets (fun s a s' h ha hstep => WakeInv.step h ha hstep) (WakeInv.empty c) hmeets
  exact hrun.mono fun s h => h.covered

/-- A command is committed between the reading and the settlement of a replica. -/
theorem no_lost_wakeup_interleaved :
    Always dispatchStep (Awake 7) .empty
      [.write 1 7 (.insert 10 "commands" (some "bob")) 0, .mark 1 7 0, .commit 1, .tick 1000, .claim 0 7,
        .readGeneration 0, .write 2 7 (.insert 20 "commands" (some "eve")) 1000, .readSummary 0,
        .mark 2 7 1000, .commit 2, .settle 0 1000, .recoverRead 3 7, .setActive 8 false] :=
  no_lost_wakeup 7 _ (by decide)

end TeamInbox.Outbox
