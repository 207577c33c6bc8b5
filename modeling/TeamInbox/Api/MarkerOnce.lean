import TeamInbox.Api.HistoryBarrier
import Mathlib.Data.List.Nodup

/-!
# TeamInbox.Api.MarkerOnce — a marker is applied after its history, and once

The row of a history event leaves the outbox only when its effects have been applied, or when the session has
ended and nothing of it is applied any more.  So the gate, which looks for rows, orders the effects
(`AppliesAfterHistory`).  Nothing keeps two handlers of one marker from passing the gate before either of them
has deleted the row.
-/

namespace TeamInbox.Api

open TeamInbox.Lib

/-! ### What is claimed -/

/-- The effects of a marker come after those of the history saved before it. -/
def AppliesAfterHistory (s s' : Calls HistoryOutbox HistoryHandler) : Prop :=
  ∀ m ∈ s.shared.saved, isHistoryBarrier m.event = true → s'.shared.applied = m.eventId :: s.shared.applied →
    ∀ h ∈ s.shared.saved, h.subject.isHistory = true → h.eventOrder < m.eventOrder → h.eventId ∈ s.shared.applied

/-- The marker a handler has passed the gate with. -/
def HistoryHandler.marker : HistoryHandler → Option ℕ
  | .admitted e _ | .resolved e _ | .processed e _ => if isHistoryBarrier e then e.eventId else none
  | _ => none

def BarrierKept (as : List (CallAction HandlerAction WorkerAction)) : Prop :=
  Steps historySystem.step (fun s _ s' => AppliesAfterHistory s s') (.start .empty .idle) as ∧
    Always historySystem.step (fun s => ∀ m ∈ s.shared.saved, isHistoryBarrier m.event = true →
      s.shared.applied.count m.eventId ≤ 1) (.start .empty .idle) as

/-- No handler stops between applying a marker and acknowledging it. -/
def Acknowledges (s : Calls HistoryOutbox HistoryHandler) : CallAction HandlerAction WorkerAction → Prop
  | .act p .fail | .act p .crash => ∀ e rest, s.calls p = .processed e rest →
      ∀ id ∈ (s.calls p).marker, id ∉ s.shared.applied
  | _ => True

/-- A handler asks the gate when no other one has passed it with the same marker. -/
def GateExclusive (s : Calls HistoryOutbox HistoryHandler) : CallAction HandlerAction WorkerAction → Prop
  | .act p .proceed => ∀ e rest, s.calls p = .received e rest → isHistoryBarrier e = true →
      ∀ q, q ≠ p → ∀ id ∈ e.eventId, (s.calls q).marker ≠ some id
  | _ => True

/-! ### Steps -/

/-- The event at hand, and what a drain has left. -/
def HistoryHandler.task : HistoryHandler → Option (HistoryEvent × List HistoryEvent)
  | .idle => none
  | .received e rest | .admitted e rest | .resolved e rest | .processed e rest => some (e, rest)

inductive HandlerMove (s : HistoryOutbox) :
    HistoryHandler → HandlerAction → HistoryOutbox → HistoryHandler → Prop
  | deliver {e : HistoryEvent} (h : e.eventId = none ∨ e ∈ s.saved.map (·.event)) :
    HandlerMove s .idle (.deliver e) s (.received e [])
  | drain : HandlerMove s .idle .drain s (.next s.drainHistoryBarriers)
  | pass {e : HistoryEvent} {rest : List HistoryEvent} (h : s.canApplyHistoryBarrier e = true) :
    HandlerMove s (.received e rest) .proceed s (.admitted e rest)
  | refuse {e : HistoryEvent} {rest : List HistoryEvent} : HandlerMove s (.received e rest) .proceed s (.next rest)
  | drop {e : HistoryEvent} {rest : List HistoryEvent} (h : s.ended = true) :
    HandlerMove s (.admitted e rest) .proceed s (.processed e rest)
  | resolve {e : HistoryEvent} {rest : List HistoryEvent} (h : s.ended = false) :
    HandlerMove s (.admitted e rest) .proceed s (.resolved e rest)
  | apply {e : HistoryEvent} {rest : List HistoryEvent} :
    HandlerMove s (.resolved e rest) .proceed { s with applied := e.eventId.toList ++ s.applied } (.processed e rest)
  | acknowledge {e : HistoryEvent} {rest : List HistoryEvent} :
    HandlerMove s (.processed e rest) .proceed (s.acknowledgeAppliedHistory e) (.next rest)
  | fail {x : HistoryHandler} {e : HistoryEvent} {rest : List HistoryEvent} (h : x.task = some (e, rest)) :
    HandlerMove s x .fail s (.next rest)
  | crash {x : HistoryHandler} : HandlerMove s x .crash s .idle

theorem handlerAct_move {s w : HistoryOutbox} {x x' : HistoryHandler} {a : HandlerAction}
    (h : handlerAct s x a = some (w, x')) : HandlerMove s x a w x' := by
  cases a with
  | deliver e =>
    cases x with
    | idle =>
      simp only [handlerAct] at h
      split_ifs at h with hknown
      obtain ⟨rfl, rfl⟩ := Prod.mk.inj (Option.some.inj h)
      exact .deliver hknown
    | received | admitted | resolved | processed => exact nomatch h
  | drain =>
    cases x with
    | idle =>
      obtain ⟨rfl, rfl⟩ := Prod.mk.inj (Option.some.inj h)
      exact .drain
    | received | admitted | resolved | processed => exact nomatch h
  | proceed =>
    cases x with
    | idle => exact nomatch h
    | received e rest =>
      obtain ⟨rfl, rfl⟩ := Prod.mk.inj (Option.some.inj h)
      split_ifs with hgate
      · exact .pass hgate
      · exact .refuse
    | admitted e rest =>
      obtain ⟨rfl, rfl⟩ := Prod.mk.inj (Option.some.inj h)
      split_ifs with hended
      · exact .drop hended
      · exact .resolve (by simpa using hended)
    | resolved e rest =>
      obtain ⟨rfl, rfl⟩ := Prod.mk.inj (Option.some.inj h)
      exact .apply
    | processed e rest =>
      obtain ⟨rfl, rfl⟩ := Prod.mk.inj (Option.some.inj h)
      exact .acknowledge
  | fail =>
    cases x with
    | idle => exact nomatch h
    | received | admitted | resolved | processed =>
      obtain ⟨rfl, rfl⟩ := Prod.mk.inj (Option.some.inj h)
      exact .fail rfl
  | crash =>
    have h : some (s, HistoryHandler.idle) = some (w, x') := by
      cases x <;> exact h
    obtain ⟨rfl, rfl⟩ := Prod.mk.inj (Option.some.inj h)
    exact .crash

/-! ### The outbox -/

def Known (s : HistoryOutbox) (e : HistoryEvent) : Prop := ∀ id, e.eventId = some id → e ∈ s.saved.map (·.event)

structure OutboxInv (s : HistoryOutbox) : Prop where
  ids : (s.saved.map (·.eventId)).Nodup
  orders : ∀ r ∈ s.saved, r.eventOrder < s.nextOrder
  rows : ∀ r ∈ s.rows, r.unpublished ∈ s.saved
  applied : ∀ id ∈ s.applied, id ∈ s.saved.map (·.eventId)
  /-- history leaves the outbox applied, unless the session has ended -/
  gone : ∀ h ∈ s.saved, h.subject.isHistory = true → h.eventId ∉ s.rows.map (·.eventId) →
    h.eventId ∈ s.applied ∨ s.ended = true

def HandlerInv (s : HistoryOutbox) (x : HistoryHandler) : Prop :=
  (∀ e rest, x.task = some (e, rest) → Known s e ∧ ∀ e' ∈ rest, Known s e') ∧
    match x with
    | .admitted e _ => isHistoryBarrier e = true → ∀ m ∈ s.saved, m.event = e → ∀ h ∈ s.saved,
        h.subject.isHistory = true → h.eventOrder < m.eventOrder → h.eventId ∉ s.rows.map (·.eventId)
    | .resolved e _ => isHistoryBarrier e = true → ∀ m ∈ s.saved, m.event = e → ∀ h ∈ s.saved,
        h.subject.isHistory = true → h.eventOrder < m.eventOrder → h.eventId ∈ s.applied
    | .processed e _ => e.subject.isHistory = true → ∀ id, e.eventId = some id → id ∈ s.applied ∨ s.ended = true
    | _ => True

structure Grows (s w : HistoryOutbox) : Prop where
  saved : ∀ r ∈ s.saved, r ∈ w.saved
  fresh : ∀ r ∈ w.saved, r ∈ s.saved ∨ s.nextOrder ≤ r.eventOrder
  rows : ∀ r ∈ s.saved, r.eventId ∉ s.rows.map (·.eventId) → r.eventId ∉ w.rows.map (·.eventId)
  applied : ∀ id ∈ s.applied, id ∈ w.applied
  ended : s.ended = true → w.ended = true

theorem Grows.refl (s : HistoryOutbox) : Grows s s :=
  ⟨fun _ h => h, fun _ h => .inl h, fun _ _ h => h, fun _ h => h, fun h => h⟩

section Outbox

variable {s w : HistoryOutbox}

theorem OutboxInv.row_eq (hI : OutboxInv s) {r t : OutboxRow} (hr : r ∈ s.saved) (ht : t ∈ s.saved)
    (h : r.eventId = t.eventId) : r = t := List.inj_on_of_nodup_map hI.ids hr ht h

theorem OutboxInv.event_eq (hI : OutboxInv s) {r : OutboxRow} {e : HistoryEvent} (hr : r ∈ s.saved)
    (he : Known s e) (h : e.eventId = some r.eventId) : e = r.event := by
  obtain ⟨t, ht, rfl⟩ := List.mem_map.mp (he r.eventId h)
  rw [hI.row_eq ht hr (Option.some.inj h)]

theorem Known.grows {e : HistoryEvent} (h : Known s e) (hg : Grows s w) : Known w e := by
  intro id hid
  obtain ⟨r, hr, he⟩ := List.mem_map.mp (h id hid)
  exact List.mem_map.mpr ⟨r, hg.saved r hr, he⟩

theorem Grows.saved_of_event (hg : Grows s w) (hw : OutboxInv w) {m : OutboxRow} {e : HistoryEvent}
    (he : Known s e) (hm : m ∈ w.saved) (hev : m.event = e) : m ∈ s.saved := by
  obtain ⟨t, ht, hte⟩ := List.mem_map.mp (he m.eventId (hev ▸ rfl))
  have hid : t.eventId = m.eventId := by
    have h : t.event.eventId = m.event.eventId := by rw [hte, hev]
    exact Option.some.inj h
  rw [← hw.row_eq (hg.saved t ht) hm hid]
  exact ht

theorem Grows.saved_of_earlier (hg : Grows s w) (hI : OutboxInv s) {m h : OutboxRow} (hm : m ∈ s.saved)
    (hh : h ∈ w.saved) (hlt : h.eventOrder < m.eventOrder) : h ∈ s.saved := by
  rcases hg.fresh h hh with hold | hnew
  · exact hold
  · have hbound := hI.orders m hm
    omega

theorem HandlerInv.grows (hI : OutboxInv s) (hw : OutboxInv w) (hg : Grows s w) {x : HistoryHandler}
    (h : HandlerInv s x) : HandlerInv w x := by
  obtain ⟨htask, hstage⟩ := h
  refine ⟨fun e rest hx => ?_, ?_⟩
  · obtain ⟨he, hrest⟩ := htask e rest hx
    exact ⟨he.grows hg, fun e' he' => (hrest e' he').grows hg⟩
  · cases x with
    | idle | received => trivial
    | admitted e rest =>
      intro hbar m hm hev h hh hhist hlt
      have hm' : m ∈ s.saved := hg.saved_of_event hw (htask e rest rfl).1 hm hev
      have hh' : h ∈ s.saved := hg.saved_of_earlier hI hm' hh hlt
      exact hg.rows h hh' (hstage hbar m hm' hev h hh' hhist hlt)
    | resolved e rest =>
      intro hbar m hm hev h hh hhist hlt
      have hm' : m ∈ s.saved := hg.saved_of_event hw (htask e rest rfl).1 hm hev
      have hh' : h ∈ s.saved := hg.saved_of_earlier hI hm' hh hlt
      exact hg.applied h.eventId (hstage hbar m hm' hev h hh' hhist hlt)
    | processed e rest =>
      intro hhist id hid
      exact (hstage hhist id hid).imp (hg.applied id) hg.ended

theorem HandlerInv.next {rest : List HistoryEvent} (h : ∀ e ∈ rest, Known s e) : HandlerInv s (.next rest) := by
  cases rest with
  | nil => exact ⟨fun _ _ h => (nomatch h), trivial⟩
  | cons e rest =>
    refine ⟨fun e' rest' htask => ?_, trivial⟩
    obtain ⟨rfl, rfl⟩ := Prod.mk.inj (Option.some.inj htask)
    exact ⟨h e List.mem_cons_self, fun e' he' => h e' (List.mem_cons_of_mem e he')⟩

theorem OutboxInv.known_drained (hI : OutboxInv s) : ∀ e ∈ s.drainHistoryBarriers, Known s e := by
  intro e he id hid
  obtain ⟨r, hr, rfl⟩ := List.mem_map.mp he
  have hrow : r ∈ s.rows := (List.mem_filter.mp (List.mem_of_mem_take hr)).1
  exact List.mem_map.mpr ⟨r.unpublished, hI.rows r hrow, rfl⟩

theorem OutboxInv.gate (hI : OutboxInv s) {e : HistoryEvent} (h : s.canApplyHistoryBarrier e = true)
    (hbar : isHistoryBarrier e = true) {m : OutboxRow} (hm : m ∈ s.saved) (hev : m.event = e) :
    m.eventId ∈ s.rows.map (·.eventId) ∧ ∀ h ∈ s.saved, h.subject.isHistory = true →
      h.eventOrder < m.eventOrder → h.eventId ∉ s.rows.map (·.eventId) := by
  subst hev
  have hgate : ((s.rows.any fun r => decide (r.eventId = m.eventId)) &&
      !s.rows.any fun marker => decide (marker.eventId = m.eventId) && s.waiting marker.eventOrder) = true :=
    (if_pos hbar).symm.trans h
  rw [Bool.and_eq_true] at hgate
  obtain ⟨hexists, hwaiting⟩ := hgate
  obtain ⟨r, hr, hid⟩ := List.any_eq_true.mp hexists
  have hid : r.eventId = m.eventId := of_decide_eq_true hid
  have hrow : r.unpublished = m := hI.row_eq (hI.rows r hr) hm hid
  refine ⟨List.mem_map.mpr ⟨r, hr, hid⟩, fun h hh hhist hlt hmem => ?_⟩
  obtain ⟨t, ht, htid⟩ := List.mem_map.mp hmem
  have hth : t.unpublished = h := hI.row_eq (hI.rows t ht) hh htid
  have hfound : (s.rows.any fun marker => decide (marker.eventId = m.eventId) && s.waiting marker.eventOrder) = true := by
    refine List.any_eq_true.mpr ⟨r, hr, ?_⟩
    rw [Bool.and_eq_true]
    refine ⟨decide_eq_true hid, List.any_eq_true.mpr ⟨t, ht, ?_⟩⟩
    have horder : t.eventOrder < r.eventOrder := by
      rw [← hth, ← hrow] at hlt
      exact hlt
    have hsubject : t.subject.isHistory = true := by
      rw [← hth] at hhist
      exact hhist
    rw [Bool.and_eq_true]
    exact ⟨decide_eq_true horder, hsubject⟩
  rw [hfound] at hwaiting
  exact absurd hwaiting (by decide)

end Outbox

section Steps

variable {s w : HistoryOutbox}

theorem OutboxInv.apply (hI : OutboxInv s) {e : HistoryEvent} (he : Known s e) :
    OutboxInv { s with applied := e.eventId.toList ++ s.applied } := by
  refine ⟨hI.ids, hI.orders, hI.rows, fun id hid => ?_, fun h hh hhist hgone => ?_⟩
  · rcases List.mem_append.mp hid with hid | hid
    · obtain ⟨r, hr, hev⟩ := List.mem_map.mp (he id (Option.mem_toList.mp hid))
      have hre : r.event.eventId = some id := hev ▸ Option.mem_toList.mp hid
      exact List.mem_map.mpr ⟨r, hr, Option.some.inj hre⟩
    · exact hI.applied id hid
  · exact (hI.gone h hh hhist hgone).imp_left (List.mem_append_right _)

theorem grows_apply (e : HistoryEvent) : Grows s { s with applied := e.eventId.toList ++ s.applied } :=
  ⟨fun _ h => h, fun _ h => .inl h, fun _ _ h => h, fun _ h => List.mem_append_right _ h, fun h => h⟩

theorem rows_acknowledge {e : HistoryEvent} {id : ℕ} :
    id ∈ (s.acknowledgeAppliedHistory e).rows.map (·.eventId) ↔
      id ∈ s.rows.map (·.eventId) ∧ (e.eventId = some id → e.subject = .other) := by
  unfold HistoryOutbox.acknowledgeAppliedHistory
  cases hid : e.eventId with
  | none => simp
  | some eid =>
    by_cases hother : e.subject = .other
    · simp [hother]
    · simp only [hother, if_false, imp_false]
      constructor
      · intro h
        obtain ⟨r, hr, rfl⟩ := List.mem_map.mp h
        obtain ⟨hr, hne⟩ := List.mem_filter.mp hr
        exact ⟨List.mem_map_of_mem hr, fun heq => of_decide_eq_true hne (Option.some.inj heq).symm⟩
      · rintro ⟨h, hne⟩
        obtain ⟨r, hr, rfl⟩ := List.mem_map.mp h
        exact List.mem_map_of_mem (List.mem_filter.mpr ⟨hr, decide_eq_true fun heq => hne (heq ▸ rfl)⟩)

theorem acknowledge_rest (e : HistoryEvent) : (s.acknowledgeAppliedHistory e).saved = s.saved ∧
    (s.acknowledgeAppliedHistory e).applied = s.applied ∧ (s.acknowledgeAppliedHistory e).ended = s.ended ∧
    (s.acknowledgeAppliedHistory e).nextOrder = s.nextOrder ∧
    ∀ r ∈ (s.acknowledgeAppliedHistory e).rows, r ∈ s.rows := by
  unfold HistoryOutbox.acknowledgeAppliedHistory
  cases e.eventId with
  | none => exact ⟨rfl, rfl, rfl, rfl, fun _ h => h⟩
  | some id =>
    split_ifs
    · exact ⟨rfl, rfl, rfl, rfl, fun _ h => h⟩
    · exact ⟨rfl, rfl, rfl, rfl, fun _ h => List.mem_of_mem_filter h⟩

theorem OutboxInv.acknowledge (hI : OutboxInv s) {e : HistoryEvent} {rest : List HistoryEvent}
    (hx : HandlerInv s (.processed e rest)) : OutboxInv (s.acknowledgeAppliedHistory e) := by
  obtain ⟨hsaved, happlied, hended, horder, hrows⟩ := acknowledge_rest (s := s) e
  refine ⟨hsaved ▸ hI.ids, fun r hr => ?_, fun r hr => ?_, fun id hid => ?_, fun h hh hhist hgone => ?_⟩
  · rw [horder]
    exact hI.orders r (hsaved ▸ hr)
  · rw [hsaved]
    exact hI.rows r (hrows r hr)
  · rw [hsaved]
    exact hI.applied id (happlied ▸ hid)
  · rw [hsaved] at hh
    rw [happlied, hended]
    by_cases hmem : h.eventId ∈ s.rows.map (·.eventId)
    · have hid : e.eventId = some h.eventId := by
        by_contra hne
        exact hgone (rows_acknowledge.mpr ⟨hmem, fun heq => absurd heq hne⟩)
      have he : e = h.event := hI.event_eq hh (hx.1 e rest rfl).1 hid
      have hsub : e.subject.isHistory = true := by
        rw [he]
        exact hhist
      exact hx.2 hsub h.eventId hid
    · exact hI.gone h hh hhist hmem

theorem grows_acknowledge (e : HistoryEvent) : Grows s (s.acknowledgeAppliedHistory e) := by
  obtain ⟨hsaved, happlied, hended, -, -⟩ := acknowledge_rest (s := s) e
  refine ⟨fun r hr => ?_, fun r hr => .inl (hsaved ▸ hr), fun r _ hgone hmem => ?_, fun id hid => ?_, fun h => ?_⟩
  · rw [hsaved]
    exact hr
  · exact hgone (rows_acknowledge.mp hmem).1
  · rw [happlied]
    exact hid
  · rw [hended]
    exact h

theorem OutboxInv.save (hI : OutboxInv s) {id : ℕ} (hid : id ∉ s.saved.map (·.eventId)) (subject : EventSubject)
    (completed : Bool) : OutboxInv (s.savePendingEvent id subject completed) := by
  have hmem : ∀ r, r ∈ (s.savePendingEvent id subject completed).saved ↔
      r ∈ s.saved ∨ r = ⟨id, s.nextOrder, subject, completed, false⟩ := by
    intro r
    rw [HistoryOutbox.savePendingEvent, List.mem_append, List.mem_singleton]
  have hrows : (s.savePendingEvent id subject completed).rows.map (·.eventId) = s.rows.map (·.eventId) ++ [id] := by
    rw [HistoryOutbox.savePendingEvent, List.map_append]
    rfl
  refine ⟨?_, fun r hr => ?_, fun r hr => ?_, fun i hi => ?_, fun h hh hhist hgone => ?_⟩
  · show ((s.saved ++ [_]).map _).Nodup
    rw [List.map_append, List.nodup_append_comm]
    exact List.nodup_cons.mpr ⟨hid, hI.ids⟩
  · show r.eventOrder < s.nextOrder + 1
    rcases (hmem r).mp hr with hold | rfl
    · have hbound := hI.orders r hold
      omega
    · exact Nat.lt_succ_self _
  · rw [hmem]
    rcases List.mem_append.mp hr with hold | hnew
    · exact .inl (hI.rows r hold)
    · rw [List.mem_singleton.mp hnew]
      exact .inr rfl
  · obtain ⟨r, hr, rfl⟩ := List.mem_map.mp (hI.applied i hi)
    exact List.mem_map_of_mem ((hmem r).mpr (.inl hr))
  · rw [hrows, List.mem_append, not_or, List.mem_singleton] at hgone
    rcases (hmem h).mp hh with hold | rfl
    · exact hI.gone h hold hhist hgone.1
    · exact absurd rfl hgone.2

theorem grows_save {id : ℕ} (hid : id ∉ s.saved.map (·.eventId)) (subject : EventSubject)
    (completed : Bool) : Grows s (s.savePendingEvent id subject completed) := by
  refine ⟨fun r hr => List.mem_append_left _ hr, fun r hr => ?_, fun r hr hgone hmem => ?_, fun _ h => h, fun h => h⟩
  · rcases List.mem_append.mp hr with hold | hnew
    · exact .inl hold
    · rw [List.mem_singleton.mp hnew]
      exact .inr (Nat.le_refl _)
  · obtain ⟨t, ht, hte⟩ := List.mem_map.mp hmem
    rcases List.mem_append.mp ht with hold | hnew
    · exact hgone (List.mem_map.mpr ⟨t, hold, hte⟩)
    · rw [List.mem_singleton.mp hnew] at hte
      exact hid (List.mem_map.mpr ⟨r, hr, hte.symm⟩)

theorem rows_publish {id i : ℕ} : i ∈ (s.markEventPublished id).rows.map (·.eventId) ↔
    ∃ r ∈ s.rows, r.eventId = i ∧ (i ≠ id ∨ HistoryOutbox.retained r.subject = true) := by
  have hmap : (s.markEventPublished id).rows.map (·.eventId) =
      (s.rows.filter fun r => decide (r.eventId ≠ id) || HistoryOutbox.retained r.subject).map (·.eventId) := by
    rw [HistoryOutbox.markEventPublished, List.map_map]
    refine List.map_congr_left fun r _ => ?_
    rw [Function.comp_apply]
    split_ifs <;> rfl
  rw [hmap]
  simp only [List.mem_map, List.mem_filter, Bool.or_eq_true, decide_eq_true_eq]
  constructor
  · rintro ⟨r, ⟨hr, hkeep⟩, rfl⟩
    exact ⟨r, hr, rfl, hkeep⟩
  · rintro ⟨r, hr, rfl, hkeep⟩
    exact ⟨r, ⟨hr, hkeep⟩, rfl⟩

theorem OutboxInv.publish (hI : OutboxInv s) (id : ℕ) : OutboxInv (s.markEventPublished id) := by
  refine ⟨hI.ids, hI.orders, fun r hr => ?_, hI.applied, fun h hh hhist hgone => ?_⟩
  · obtain ⟨t, ht, rfl⟩ := List.mem_map.mp hr
    have hrow : t.unpublished ∈ s.saved := hI.rows t (List.mem_of_mem_filter ht)
    split_ifs
    · exact hrow
    · exact hrow
  · refine hI.gone h hh hhist fun hmem => hgone ?_
    obtain ⟨r, hr, hid⟩ := List.mem_map.mp hmem
    have hrow : r.unpublished = h := hI.row_eq (hI.rows r hr) hh hid
    have hsub : r.subject.isHistory = true := by
      rw [← hrow] at hhist
      exact hhist
    refine rows_publish.mpr ⟨r, hr, hid, .inr ?_⟩
    rw [HistoryOutbox.retained, hsub]
    rfl

theorem grows_publish (id : ℕ) : Grows s (s.markEventPublished id) := by
  refine ⟨fun _ h => h, fun _ h => .inl h, fun r _ hgone hmem => ?_, fun _ h => h, fun h => h⟩
  obtain ⟨t, ht, hid, -⟩ := rows_publish.mp hmem
  exact hgone (List.mem_map.mpr ⟨t, ht, hid⟩)

theorem workerAct_grows (hI : OutboxInv s) {a : WorkerAction} (h : workerAct s a = some w) :
    OutboxInv w ∧ Grows s w := by
  cases a with
  | save id subject completed =>
    simp only [workerAct] at h
    split_ifs at h with hfresh
    obtain rfl := Option.some.inj h
    exact ⟨hI.save hfresh subject completed, grows_save hfresh subject completed⟩
  | publish id =>
    obtain rfl := Option.some.inj h
    exact ⟨hI.publish id, grows_publish id⟩
  | endSession =>
    obtain rfl := Option.some.inj h
    exact ⟨⟨hI.ids, hI.orders, hI.rows, hI.applied, fun _ _ _ _ => .inr rfl⟩,
      fun _ h => h, fun _ h => .inl h, fun _ _ h => h, fun _ h => h, fun _ => rfl⟩

theorem HandlerMove.grows (hI : OutboxInv s) {x x' : HistoryHandler} {a : HandlerAction} (hx : HandlerInv s x)
    (h : HandlerMove s x a w x') : OutboxInv w ∧ HandlerInv w x' ∧ Grows s w := by
  cases h with
  | deliver hknown =>
    rename_i e
    refine ⟨hI, ⟨fun e' rest htask => ?_, trivial⟩, .refl s⟩
    obtain ⟨rfl, rfl⟩ := Prod.mk.inj (Option.some.inj htask)
    refine ⟨fun id hid => ?_, fun _ h => absurd h List.not_mem_nil⟩
    rcases hknown with hnone | hmem
    · rw [hnone] at hid
      exact absurd hid (Option.some_ne_none id).symm
    · exact hmem
  | drain => exact ⟨hI, HandlerInv.next hI.known_drained, .refl s⟩
  | pass hgate => exact ⟨hI, ⟨hx.1, fun hbar m hm hev => (hI.gate hgate hbar hm hev).2⟩, .refl s⟩
  | refuse => exact ⟨hI, HandlerInv.next (hx.1 _ _ rfl).2, .refl s⟩
  | drop hended => exact ⟨hI, ⟨hx.1, fun _ _ _ => .inr hended⟩, .refl s⟩
  | resolve hactive =>
    refine ⟨hI, ⟨hx.1, fun hbar m hm hev h hh hhist hlt => ?_⟩, .refl s⟩
    refine (hI.gone h hh hhist (hx.2 hbar m hm hev h hh hhist hlt)).resolve_right fun hended => ?_
    rw [hactive] at hended
    exact absurd hended Bool.false_ne_true
  | apply =>
    have hw := hI.apply (hx.1 _ _ rfl).1
    refine ⟨hw, ⟨fun e' rest' htask => ?_, fun _ id hid => .inl ?_⟩, grows_apply _⟩
    · obtain ⟨hknown, hrest⟩ := hx.1 e' rest' htask
      exact ⟨hknown, hrest⟩
    · exact List.mem_append_left _ (Option.mem_toList.mpr hid)
  | acknowledge =>
    have hw := hI.acknowledge hx
    refine ⟨hw, HandlerInv.next fun e he => ?_, grows_acknowledge _⟩
    exact ((hx.1 _ _ rfl).2 e he).grows (grows_acknowledge _)
  | fail htask => exact ⟨hI, HandlerInv.next (hx.1 _ _ htask).2, .refl s⟩
  | crash => exact ⟨hI, ⟨fun _ _ h => (nomatch h), trivial⟩, .refl s⟩

end Steps

/-! ### Markers after their history -/

abbrev HistoryInv : Calls HistoryOutbox HistoryHandler → Prop := Holds OutboxInv fun s _ x => HandlerInv s x

theorem historyInv_start : HistoryInv (.start .empty .idle) := by
  refine holds_start ⟨List.nodup_nil, ?_, ?_, ?_, ?_⟩ fun _ => ⟨fun _ _ h => (nomatch h), trivial⟩
  all_goals intro _ h; exact absurd h List.not_mem_nil

theorem historyInv_step (s : Calls HistoryOutbox HistoryHandler) (a : CallAction HandlerAction WorkerAction)
    (s' : Calls HistoryOutbox HistoryHandler) (hs : HistoryInv s) (h : historySystem.step s a = some s') :
    HistoryInv s' := by
  refine Machine.holds_step (C := fun _ _ => True) (fun s p a w x hs _ hact => ?_) (fun s e w hs _ henv => ?_)
    s a s' hs trivial h
  · obtain ⟨hI, hx, hg⟩ := (handlerAct_move hact).grows hs.1 (hs.2 p)
    exact ⟨hI, hx, fun q _ => (hs.2 q).grows hs.1 hI hg⟩
  · obtain ⟨hI, hg⟩ := workerAct_grows hs.1 henv
    exact ⟨hI, fun q => (hs.2 q).grows hs.1 hI hg⟩

theorem cons_ne_self {α : Type} {x : α} {l : List α} : l ≠ x :: l := by
  intro h
  have hlen := congrArg List.length h
  rw [List.length_cons] at hlen
  omega

theorem workerAct_applied {s w : HistoryOutbox} {a : WorkerAction} (h : workerAct s a = some w) :
    w.applied = s.applied := by
  cases a with
  | save id subject completed =>
    simp only [workerAct] at h
    split_ifs at h
    obtain rfl := Option.some.inj h
    rfl
  | publish id =>
    obtain rfl := Option.some.inj h
    rfl
  | endSession =>
    obtain rfl := Option.some.inj h
    rfl

theorem appliesAfterHistory_of_step {s s' : Calls HistoryOutbox HistoryHandler}
    {a : CallAction HandlerAction WorkerAction} (hs : HistoryInv s) (h : historySystem.step s a = some s') :
    AppliesAfterHistory s s' := by
  intro m hm hbar happlied
  cases a with
  | env e =>
    obtain ⟨w, henv, rfl⟩ := Machine.step_env h
    exact absurd ((workerAct_applied henv).symm.trans happlied) cons_ne_self
  | act p a =>
    obtain ⟨w, x, hact, rfl⟩ := Machine.step_act h
    have hx := hs.2 p
    have hmove := handlerAct_move hact
    rw [Calls.shared_set] at happlied
    generalize s.calls p = y at hx hmove
    cases hmove with
    | deliver | drain | pass | refuse | drop | resolve | fail | crash => exact absurd happlied cons_ne_self
    | acknowledge => exact absurd ((acknowledge_rest _).2.1.symm.trans happlied) cons_ne_self
    | apply =>
      rename_i e rest
      have hid : e.eventId = some m.eventId := by
        cases hid : e.eventId with
        | none =>
          rw [hid] at happlied
          exact absurd happlied cons_ne_self
        | some id =>
          rw [hid] at happlied
          rw [(List.cons.inj happlied).1]
      have he : e = m.event := hs.1.event_eq hm (hx.1 e rest rfl).1 hid
      subst he
      exact hx.2 hbar m hm rfl

/-! ### Markers once -/

/-- Between the gate and the acknowledgement a marker is in one hand, and applied by it at most. -/
structure OnceInv (s : Calls HistoryOutbox HistoryHandler) : Prop where
  alone : ∀ p q id, (s.calls p).marker = some id → (s.calls q).marker = some id → p = q
  present : ∀ p id, (s.calls p).marker = some id → id ∈ s.shared.rows.map (·.eventId)
  unapplied : ∀ p e rest id, s.calls p = .admitted e rest ∨ s.calls p = .resolved e rest →
    (s.calls p).marker = some id → id ∉ s.shared.applied
  held : ∀ m ∈ s.shared.saved, isHistoryBarrier m.event = true → m.eventId ∈ s.shared.applied →
    m.eventId ∈ s.shared.rows.map (·.eventId) →
      ∃ p e rest, s.calls p = .processed e rest ∧ (s.calls p).marker = some m.eventId
  once : ∀ m ∈ s.shared.saved, isHistoryBarrier m.event = true → s.shared.applied.count m.eventId ≤ 1

theorem onceInv_start : OnceInv (.start .empty .idle) := by
  refine ⟨fun _ _ _ h => (nomatch h), fun _ _ h => (nomatch h), fun _ _ _ _ h => h.elim (nomatch ·) (nomatch ·), ?_, ?_⟩
  all_goals intro _ h; exact absurd h List.not_mem_nil

theorem marker_next (rest : List HistoryEvent) : (HistoryHandler.next rest).marker = none := by
  cases rest with
  | nil => rfl
  | cons e rest => rfl

section Once

variable {s : Calls HistoryOutbox HistoryHandler} {p : ℕ} {x : HistoryHandler}

theorem marker_set {w : HistoryOutbox} {q id : ℕ} (h : ((s.set p w x).calls q).marker = some id) :
    q = p ∧ x.marker = some id ∨ q ≠ p ∧ (s.calls q).marker = some id := by
  by_cases hq : q = p
  · subst hq
    rw [Calls.calls_set_self] at h
    exact .inl ⟨rfl, h⟩
  · rw [Calls.calls_set_ne s w x hq] at h
    exact .inr ⟨hq, h⟩

theorem held_set {w : HistoryOutbox} {id : ℕ}
    (h : ∃ q e rest, q ≠ p ∧ s.calls q = .processed e rest ∧ (s.calls q).marker = some id) :
    ∃ q e rest, (s.set p w x).calls q = .processed e rest ∧ ((s.set p w x).calls q).marker = some id := by
  obtain ⟨q, e, rest, hne, hstage, hmark⟩ := h
  have hsame : (s.set p w x).calls q = s.calls q := Calls.calls_set_ne s w x hne
  exact ⟨q, e, rest, hsame.trans hstage, hsame ▸ hmark⟩

theorem OnceInv.leave (hO : OnceInv s) (hx : x.marker = none)
    (hunapplied : ∀ e rest, s.calls p = .processed e rest → ∀ id ∈ (s.calls p).marker, id ∉ s.shared.applied) :
    OnceInv (s.set p s.shared x) := by
  have hold : ∀ q id, ((s.set p s.shared x).calls q).marker = some id → q ≠ p ∧ (s.calls q).marker = some id := by
    intro q id h
    rcases marker_set h with ⟨-, hmark⟩ | hother
    · rw [hx] at hmark
      exact absurd hmark (Option.some_ne_none id).symm
    · exact hother
  refine ⟨fun q r id hq hr => ?_, fun q id hq => ?_, fun q e rest id hstage hq => ?_, fun m hm hbar happ hrow => ?_,
    hO.once⟩
  · exact hO.alone q r id (hold q id hq).2 (hold r id hr).2
  · exact hO.present q id (hold q id hq).2
  · obtain ⟨hne, hmark⟩ := hold q id hq
    rw [Calls.calls_set_ne s _ x hne] at hstage
    exact hO.unapplied q e rest id hstage hmark
  · obtain ⟨q, e, rest, hstage, hmark⟩ := hO.held m hm hbar happ hrow
    by_cases hq : q = p
    · subst hq
      exact absurd happ (hunapplied e rest hstage m.eventId hmark)
    · exact held_set ⟨q, e, rest, hq, hstage, hmark⟩

theorem OnceInv.advance (hO : OnceInv s) (hx : x.marker = (s.calls p).marker)
    (hstage : ∃ e rest, s.calls p = .admitted e rest ∨ s.calls p = .resolved e rest) :
    OnceInv (s.set p s.shared x) := by
  obtain ⟨e₀, rest₀, hstage₀⟩ := hstage
  have hold : ∀ q id, ((s.set p s.shared x).calls q).marker = some id → (s.calls q).marker = some id := by
    intro q id h
    rcases marker_set h with ⟨rfl, hmark⟩ | hother
    · exact hx.symm.trans hmark
    · exact hother.2
  refine ⟨fun q r id hq hr => hO.alone q r id (hold q id hq) (hold r id hr),
    fun q id hq => hO.present q id (hold q id hq), fun q e rest id hstage hq => ?_,
    fun m hm hbar happ hrow => ?_, hO.once⟩
  · by_cases hqp : q = p
    · subst hqp
      exact hO.unapplied q e₀ rest₀ id hstage₀ (hold q id hq)
    · rw [Calls.calls_set_ne s _ x hqp] at hstage
      exact hO.unapplied q e rest id hstage (hold q id hq)
  · obtain ⟨q, e, rest, hst, hmark⟩ := hO.held m hm hbar happ hrow
    have hne : q ≠ p := by
      rintro rfl
      rw [hst] at hstage₀
      exact hstage₀.elim (nomatch ·) (nomatch ·)
    exact held_set ⟨q, e, rest, hne, hst, hmark⟩

theorem marker_of_barrier {e : HistoryEvent} {id : ℕ} {o : Option ℕ}
    (h : (if isHistoryBarrier e then o else none) = some id) : isHistoryBarrier e = true ∧ o = some id := by
  split_ifs at h with hbar
  exact ⟨hbar, h⟩

theorem OnceInv.pass (hO : OnceInv s) (hH : HistoryInv s) {e : HistoryEvent} {rest : List HistoryEvent}
    (hp : s.calls p = .received e rest) (hgate : s.shared.canApplyHistoryBarrier e = true)
    (hex : isHistoryBarrier e = true → ∀ q, q ≠ p → ∀ id ∈ e.eventId, (s.calls q).marker ≠ some id) :
    OnceInv (s.set p s.shared (.admitted e rest)) := by
  have hnone : (s.calls p).marker = none := by rw [hp]; rfl
  have hknown : Known s.shared e := by
    have hJ := hH.2 p
    rw [hp] at hJ
    exact (hJ.1 e rest rfl).1
  have hcases : ∀ q id, ((s.set p s.shared (.admitted e rest)).calls q).marker = some id →
      q = p ∧ isHistoryBarrier e = true ∧ e.eventId = some id ∨ q ≠ p ∧ (s.calls q).marker = some id := by
    intro q id h
    exact (marker_set h).imp_left fun hmark => ⟨hmark.1, marker_of_barrier hmark.2⟩
  refine ⟨fun q r id hq hr => ?_, fun q id hq => ?_, fun q e' rest' id hstage hq => ?_,
    fun m hm hbar happ hrow => ?_, hO.once⟩
  · rcases hcases q id hq with ⟨rfl, hbar, hid⟩ | ⟨hqp, hqm⟩
    · rcases hcases r id hr with ⟨hrp, -, -⟩ | ⟨hrp, hrm⟩
      · exact hrp.symm
      · exact absurd hrm (hex hbar r hrp id hid)
    · rcases hcases r id hr with ⟨rfl, hbar, hid⟩ | ⟨hrp, hrm⟩
      · exact absurd hqm (hex hbar q hqp id hid)
      · exact hO.alone q r id hqm hrm
  · rcases hcases q id hq with ⟨-, hbar, hid⟩ | ⟨-, hqm⟩
    · obtain ⟨m, hm, hev⟩ := List.mem_map.mp (hknown id hid)
      have hmid : m.eventId = id := by
        rw [← hev] at hid
        exact Option.some.inj hid
      exact hmid ▸ (hH.1.gate hgate hbar hm hev).1
    · exact hO.present q id hqm
  · rcases hcases q id hq with ⟨-, hbar, hid⟩ | ⟨hqp, hqm⟩
    · intro happ
      obtain ⟨m, hm, hev⟩ := List.mem_map.mp (hknown id hid)
      have hmid : m.eventId = id := by
        rw [← hev] at hid
        exact Option.some.inj hid
      subst hmid
      -- whoever has applied it has not deleted its row, and so stands between
      obtain ⟨r, e₁, rest₁, hst, hmark⟩ := hO.held m hm (hev ▸ hbar) happ (hH.1.gate hgate hbar hm hev).1
      have hrp : r ≠ p := by
        rintro rfl
        rw [hnone] at hmark
        exact absurd hmark (Option.some_ne_none _).symm
      exact hex hbar r hrp m.eventId hid hmark
    · rw [Calls.calls_set_ne s _ _ hqp] at hstage
      exact hO.unapplied q e' rest' id hstage hqm
  · obtain ⟨q, e₁, rest₁, hst, hmark⟩ := hO.held m hm hbar happ hrow
    have hqp : q ≠ p := by
      rintro rfl
      rw [hnone] at hmark
      exact absurd hmark (Option.some_ne_none _).symm
    exact held_set ⟨q, e₁, rest₁, hqp, hst, hmark⟩

theorem marker_saved (hH : HistoryInv s) {q id : ℕ} (h : (s.calls q).marker = some id) :
    ∃ m ∈ s.shared.saved, m.eventId = id ∧ isHistoryBarrier m.event = true := by
  have hJ := (hH.2 q).1
  have hsome : ∃ e rest, (s.calls q).task = some (e, rest) ∧ isHistoryBarrier e = true ∧ e.eventId = some id := by
    cases hq : s.calls q with
    | idle | received =>
      rw [hq] at h
      exact nomatch h
    | admitted e rest | resolved e rest | processed e rest =>
      rw [hq] at h
      exact ⟨e, rest, rfl, marker_of_barrier h⟩
  obtain ⟨e, rest, htask, hbar, hid⟩ := hsome
  obtain ⟨m, hm, rfl⟩ := List.mem_map.mp ((hJ e rest htask).1 id hid)
  exact ⟨m, hm, Option.some.inj hid, hbar⟩

theorem OnceInv.apply (hO : OnceInv s) (hH : HistoryInv s) {e : HistoryEvent} {rest : List HistoryEvent}
    (hp : s.calls p = .resolved e rest) :
    OnceInv (s.set p { s.shared with applied := e.eventId.toList ++ s.shared.applied } (.processed e rest)) := by
  have hknown : Known s.shared e := by
    have hJ := hH.2 p
    rw [hp] at hJ
    exact (hJ.1 e rest rfl).1
  have hmark : ∀ q id, ((s.set p { s.shared with applied := e.eventId.toList ++ s.shared.applied }
      (.processed e rest)).calls q).marker = some id → (s.calls q).marker = some id := by
    intro q id h
    rcases marker_set h with ⟨rfl, hx⟩ | hother
    · rw [hp]
      exact hx
    · exact hother.2
  have hown : ∀ m ∈ s.shared.saved, isHistoryBarrier m.event = true → e.eventId = some m.eventId →
      (s.calls p).marker = some m.eventId := by
    intro m hm hbar hid
    have he : e = m.event := hH.1.event_eq hm hknown hid
    rw [hp]
    show (if isHistoryBarrier e then e.eventId else none) = _
    rw [he, if_pos hbar]
    rfl
  refine ⟨fun q r id hq hr => hO.alone q r id (hmark q id hq) (hmark r id hr),
    fun q id hq => hO.present q id (hmark q id hq), fun q e' rest' id hstage hq => ?_,
    fun m hm hbar happ hrow => ?_, fun m hm hbar => ?_⟩
  · have hqp : q ≠ p := by
      rintro rfl
      rw [Calls.calls_set_self] at hstage
      exact hstage.elim (nomatch ·) (nomatch ·)
    have hqm := hmark q id hq
    rw [Calls.calls_set_ne s _ _ hqp] at hstage
    intro hmem
    rcases List.mem_append.mp hmem with hnew | hold
    · obtain ⟨m, hm, rfl, hbar⟩ := marker_saved hH hqm
      exact hqp (hO.alone q p _ hqm (hown m hm hbar (Option.mem_toList.mp hnew)))
    · exact hO.unapplied q e' rest' id hstage hqm hold
  · rcases List.mem_append.mp happ with hnew | hold
    · refine ⟨p, e, rest, Calls.calls_set_self s p _ _, ?_⟩
      rw [Calls.calls_set_self]
      have h := hown m hm hbar (Option.mem_toList.mp hnew)
      rw [hp] at h
      exact h
    · obtain ⟨q, e₁, rest₁, hst, hqm⟩ := hO.held m hm hbar hold hrow
      have hqp : q ≠ p := by
        rintro rfl
        rw [hp] at hst
        exact nomatch hst
      exact held_set ⟨q, e₁, rest₁, hqp, hst, hqm⟩
  · show (e.eventId.toList ++ s.shared.applied).count m.eventId ≤ 1
    rw [List.count_append]
    by_cases hid : e.eventId = some m.eventId
    · have hzero : m.eventId ∉ s.shared.applied :=
        hO.unapplied p e rest m.eventId (.inr hp) (hown m hm hbar hid)
      rw [List.count_eq_zero_of_not_mem hzero, hid]
      simp
    · have hother : m.eventId ∉ e.eventId.toList := fun hmem => hid (Option.mem_toList.mp hmem)
      rw [List.count_eq_zero_of_not_mem hother, Nat.zero_add]
      exact hO.once m hm hbar

theorem barrier_subject {e : HistoryEvent} (h : isHistoryBarrier e = true) : e.subject ≠ .other := by
  intro hother
  rw [isHistoryBarrier, hother] at h
  exact absurd h (by simp)

theorem OnceInv.acknowledge (hO : OnceInv s) (hH : HistoryInv s) {e : HistoryEvent} {rest : List HistoryEvent}
    (hp : s.calls p = .processed e rest) :
    OnceInv (s.set p (s.shared.acknowledgeAppliedHistory e) (.next rest)) := by
  obtain ⟨hsaved, happlied, -, -, -⟩ := acknowledge_rest (s := s.shared) e
  have hknown : Known s.shared e := by
    have hJ := hH.2 p
    rw [hp] at hJ
    exact (hJ.1 e rest rfl).1
  have hmark : ∀ q id, ((s.set p (s.shared.acknowledgeAppliedHistory e) (.next rest)).calls q).marker = some id →
      q ≠ p ∧ (s.calls q).marker = some id := by
    intro q id h
    rcases marker_set h with ⟨-, hx⟩ | hother
    · rw [marker_next] at hx
      exact absurd hx (Option.some_ne_none id).symm
    · exact hother
  refine ⟨fun q r id hq hr => hO.alone q r id (hmark q id hq).2 (hmark r id hr).2, fun q id hq => ?_,
    fun q e' rest' id hstage hq => ?_, fun m hm hbar happ hrow => ?_, fun m hm hbar => ?_⟩
  · obtain ⟨hqp, hqm⟩ := hmark q id hq
    refine rows_acknowledge.mpr ⟨hO.present q id hqm, fun hid => ?_⟩
    obtain ⟨m, hm, rfl, hbar⟩ := marker_saved hH hqm
    have he : e = m.event := hH.1.event_eq hm hknown hid
    have hpm : (s.calls p).marker = some m.eventId := by
      rw [hp]
      show (if isHistoryBarrier e then e.eventId else none) = _
      rw [he, if_pos hbar]
      rfl
    exact absurd (hO.alone q p _ hqm hpm) hqp
  · obtain ⟨hqp, hqm⟩ := hmark q id hq
    rw [Calls.calls_set_ne s _ _ hqp] at hstage
    rw [Calls.shared_set, happlied]
    exact hO.unapplied q e' rest' id hstage hqm
  · rw [Calls.shared_set, hsaved] at hm
    rw [Calls.shared_set, happlied] at happ
    obtain ⟨hold, hother⟩ := rows_acknowledge.mp hrow
    obtain ⟨q, e₁, rest₁, hst, hqm⟩ := hO.held m hm hbar happ hold
    have hqp : q ≠ p := by
      rintro rfl
      rw [hp] at hqm
      obtain ⟨hebar, hid⟩ := marker_of_barrier hqm
      exact barrier_subject hebar (hother hid)
    exact held_set ⟨q, e₁, rest₁, hqp, hst, hqm⟩
  · rw [Calls.shared_set, hsaved] at hm
    rw [Calls.shared_set, happlied]
    exact hO.once m hm hbar

theorem OnceInv.worker (hO : OnceInv s) (hH : HistoryInv s) {a : WorkerAction} {w : HistoryOutbox}
    (h : workerAct s.shared a = some w) : OnceInv { s with shared := w } := by
  have happlied : w.applied = s.shared.applied := workerAct_applied h
  cases a with
  | save id subject completed =>
    simp only [workerAct] at h
    split_ifs at h with hfresh
    obtain rfl := Option.some.inj h
    have hnew : id ∉ s.shared.applied := fun hmem => hfresh (hH.1.applied id hmem)
    refine ⟨hO.alone, fun q i hq => ?_, hO.unapplied, fun m hm hbar happ hrow => ?_, fun m hm hbar => ?_⟩
    · show i ∈ (s.shared.rows ++ [_]).map (fun r : OutboxRow => r.eventId)
      rw [List.map_append]
      exact List.mem_append_left _ (hO.present q i hq)
    · rcases List.mem_append.mp hm with hold | hm
      · refine hO.held m hold hbar happ ?_
        obtain ⟨r, hr, hid⟩ := List.mem_map.mp hrow
        rcases List.mem_append.mp hr with hr | hr
        · exact List.mem_map.mpr ⟨r, hr, hid⟩
        · rw [List.mem_singleton.mp hr] at hid
          exact absurd (List.mem_map.mpr ⟨m, hold, hid.symm⟩) hfresh
      · rw [List.mem_singleton.mp hm] at happ
        exact absurd happ hnew
    · rcases List.mem_append.mp hm with hold | hm
      · exact hO.once m hold hbar
      · rw [List.mem_singleton.mp hm]
        show s.shared.applied.count id ≤ 1
        rw [List.count_eq_zero_of_not_mem hnew]
        exact Nat.zero_le 1
  | publish id =>
    obtain rfl := Option.some.inj h
    refine ⟨hO.alone, fun q i hq => ?_, hO.unapplied, fun m hm hbar happ hrow => ?_, hO.once⟩
    · obtain ⟨m, hm, rfl, hbar⟩ := marker_saved hH hq
      obtain ⟨r, hr, hid⟩ := List.mem_map.mp (hO.present q _ hq)
      have hrow : r.unpublished = m := hH.1.row_eq (hH.1.rows r hr) hm hid
      refine rows_publish.mpr ⟨r, hr, hid, .inr ?_⟩
      rw [← hrow] at hbar
      have hsub : r.subject = .historySyncPage ∨ r.subject = .syncStatus := by
        simp only [isHistoryBarrier, OutboxRow.event, OutboxRow.unpublished, Bool.or_eq_true, Bool.and_eq_true] at hbar
        exact hbar.imp of_decide_eq_true fun h => of_decide_eq_true h.1
      rcases hsub with hsub | hsub <;> rw [HistoryOutbox.retained, hsub] <;> rfl
    · obtain ⟨r, hr, hid, -⟩ := rows_publish.mp hrow
      exact hO.held m hm hbar happ (List.mem_map.mpr ⟨r, hr, hid⟩)
  | endSession =>
    obtain rfl := Option.some.inj h
    exact ⟨hO.alone, hO.present, hO.unapplied, hO.held, hO.once⟩

theorem OnceInv.step {s' : Calls HistoryOutbox HistoryHandler} {a : CallAction HandlerAction WorkerAction}
    (hO : OnceInv s) (hH : HistoryInv s) (hack : Acknowledges s a) (hex : GateExclusive s a)
    (h : historySystem.step s a = some s') : OnceInv s' := by
  cases a with
  | env e =>
    obtain ⟨w, henv, rfl⟩ := Machine.step_env h
    exact hO.worker hH henv
  | act p a =>
    obtain ⟨w, x, hact, rfl⟩ := Machine.step_act h
    have hmove := handlerAct_move hact
    generalize hp : s.calls p = y at hmove
    cases hmove with
    | deliver | drain | refuse =>
      refine hO.leave (by first | rfl | exact marker_next _) fun e rest hst => ?_
      rw [hp] at hst
      exact nomatch hst
    | pass hgate => exact hO.pass hH hp hgate (hex _ _ hp)
    | drop | resolve =>
      refine hO.advance ?_ ⟨_, _, .inl hp⟩
      rw [hp]
      rfl
    | apply => exact hO.apply hH hp
    | acknowledge => exact hO.acknowledge hH hp
    | fail => exact hO.leave (marker_next _) hack
    | crash => exact hO.leave rfl hack

end Once

/-- **Once, and after the history.**  When no handler stops with an applied marker in hand and no two have passed the
gate with the same one. -/
theorem history_barrier_kept (as : List (CallAction HandlerAction WorkerAction))
    (hack : Meets historySystem.step Acknowledges (.start .empty .idle) as)
    (hex : Meets historySystem.step GateExclusive (.start .empty .idle) as) : BarrierKept as := by
  have hrun : Always historySystem.step (fun s => HistoryInv s ∧ OnceInv s) (.start .empty .idle) as :=
    always_of_meets (fun s a s' hI hC h => ⟨historyInv_step s a s' hI.1 h, hI.2.step hI.1 hC.1 hC.2 h⟩)
      ⟨historyInv_start, onceInv_start⟩ (hack.and hex)
  refine ⟨?_, hrun.mono fun _ hI => hI.2.once⟩
  exact steps_of_meets (I := HistoryInv)
    (fun s a s' hI _ h => ⟨historyInv_step s a s' hI h, appliesAfterHistory_of_step hI h⟩) historyInv_start hack

def stops : CallAction HandlerAction WorkerAction → Bool
  | .act _ .fail | .act _ .crash => true
  | _ => false

theorem acknowledges_of_not_stops {as : List (CallAction HandlerAction WorkerAction)}
    (h : ∀ a ∈ as, stops a = false) {s : Calls HistoryOutbox HistoryHandler} :
    Meets historySystem.step Acknowledges s as := by
  refine (meets_of_actions (p := fun a => stops a = false) h).mono fun s a ha => ?_
  cases a with
  | env e => trivial
  | act p a =>
    cases a with
    | deliver | drain | proceed => trivial
    | fail | crash => exact absurd ha.symm Bool.false_ne_true

/-- The marker of a page waits for the message before it, and a drain applies it. -/
theorem history_barrier_kept_drained : BarrierKept
    [.env (.save 1 .historyMessage false), .env (.save 2 .historySyncPage false), .env (.publish 1), .env (.publish 2),
      .act 0 (.deliver ⟨some 2, .historySyncPage, false⟩), .act 0 .proceed,
      .act 1 (.deliver ⟨some 1, .historyMessage, false⟩), .act 1 .proceed, .act 1 .proceed, .act 1 .proceed,
      .act 1 .proceed, .act 0 .drain, .act 0 .proceed, .act 0 .proceed, .act 0 .proceed, .act 0 .proceed] := by
  refine history_barrier_kept _ (acknowledges_of_not_stops (by decide)) ?_
  refine meets_of_below (P := fun x => x.marker = none) 2 rfl (fun s a hothers => ?_) (fun _ _ => rfl) (by decide)
    (meets_of_check (by decide +kernel))
  cases a with
  | env e => trivial
  | act p a =>
    cases a with
    | proceed =>
      intro e rest _ _ q hq id _ hmark
      rw [hothers q fun h => hq (Option.some.inj h).symm] at hmark
      exact absurd hmark (Option.some_ne_none id).symm
    | deliver | drain | fail | crash => trivial

/-- Two handlers have passed the gate with one marker. -/
theorem marker_applied_twice : ¬ ∀ as, Meets historySystem.step Acknowledges (.start .empty .idle) as →
    BarrierKept as := by
  intro h
  obtain ⟨-, honce⟩ := h [.env (.save 1 .historySyncPage false),
    .act 0 (.deliver ⟨some 1, .historySyncPage, false⟩), .act 1 (.deliver ⟨some 1, .historySyncPage, false⟩),
    .act 0 .proceed, .act 1 .proceed, .act 0 .proceed, .act 1 .proceed, .act 0 .proceed, .act 1 .proceed]
    (acknowledges_of_not_stops (by decide))
  have hend := always_iff_reached.mp honce _ [] _ (List.append_nil _).symm rfl
  exact absurd (hend ⟨1, 0, .historySyncPage, false, false⟩ (by decide) (by decide)) (by decide)

end TeamInbox.Api
