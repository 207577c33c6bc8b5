import TeamInbox.Contacts.Locks

/-!
# TeamInbox.Contacts.Correction — an unmerge reverses the merge in effect

`unmergeContacts` takes an event for the merge in effect if the source still points at the event's target, and it
reads the source without a lock.  It corrects what it should as long as the pair has not been merged again since the
event, and the corrections of one source do not overlap.
-/

namespace TeamInbox.Contacts

open TeamInbox.Lib

def ContactDb.owner (s : ContactDb) (e : ℕ) : Option ℕ := (s.endpoints.find? e).bind ContactEndpoint.contact

/-! ### What is claimed -/

/-- An unmerge that succeeds: the event is the latest merge of its source and has not been reversed, the alias
removed is its own, and what the source owned before the merge goes back, if it is on the target. -/
structure Corrected (s : ContactDb) (id : ℕ) (event : MergeEvent) (w : ContactDb) : Prop where
  unreversed : id ∉ s.reversed
  latest : ∀ j e, s.event j = some e → e.source = event.source → j ≤ id
  ownAlias : ∀ r, s.contacts.find? event.source = some r → r.mergedBy = some id
  restored : ∀ e ∈ event.owned, s.owner e = some event.target → w.owner e = some event.source

structure SameTables (s w : ContactDb) : Prop where
  contacts : w.contacts = s.contacts
  endpoints : w.endpoints = s.endpoints
  events : w.events = s.events
  reassignments : w.reassignments = s.reassignments
  reversed : w.reversed = s.reversed

/-- The next statement of the call ends it, with success. -/
def MergeCall.commits : MergeCall → Bool
  | .moving _ _ [] _ | .restoring _ _ [] _ => true
  | _ => false

/-- Only a call that succeeds changes the tables, and an unmerge corrects. -/
def CorrectsOnly (t : Calls ContactDb MergeCall) : CallAction MergeAction Empty → Calls ContactDb MergeCall → Prop
  | .act p a, t' =>
    (a = .next ∧ (t.calls p).commits = true ∨ SameTables t.shared t'.shared) ∧
      ∀ id event done, a = .next → t.calls p = .restoring id event [] done →
        Corrected t.shared id event t'.shared
  | .env _, _ => True

/-- The source has not been merged into the same target again since the event. -/
def NotRepeated (s : ContactDb) (id : ℕ) : Prop :=
  ∀ event ∈ s.event id, ∀ e ∈ s.events.drop (id + 1), ¬ (e.source = event.source ∧ e.target = event.target)

instance (s : ContactDb) (id : ℕ) : Decidable (NotRepeated s id) :=
  inferInstanceAs (Decidable (∀ event ∈ s.event id, ∀ e ∈ s.events.drop (id + 1),
    ¬ (e.source = event.source ∧ e.target = event.target)))

/-- The event a call has checked and is about to reverse. -/
def MergeCall.correcting : MergeCall → Option (ℕ × MergeEvent)
  | .restoring id event _ _ => some (id, event)
  | _ => none

def MergeCall.checks : MergeCall → Option ℕ
  | .unmerging id => some id
  | _ => none

/-- What a call is about to commit: the contact whose alias it removes, and the endpoints it moves. -/
def MergeCall.commitment : MergeCall → Option ℕ × List (ℕ × ℕ)
  | .moving _ target [] done => (none, done.map fun e => (e, target))
  | .restoring _ event [] done => (some event.source, done)
  | _ => (none, [])

/-- An unmerge checks an event that has not been repeated. -/
def ChecksUnrepeated (t : Calls ContactDb MergeCall) : CallAction MergeAction Empty → Prop
  | .act p .next => ∀ id ∈ (t.calls p).checks, NotRepeated t.shared id
  | _ => True

instance (t : Calls ContactDb MergeCall) (a : CallAction MergeAction Empty) : Decidable (ChecksUnrepeated t a) := by
  unfold ChecksUnrepeated
  split <;> infer_instance

/-- While an unmerge is between its check and its commit, no other call removes the same alias or moves one of the
event's endpoints to its target. -/
def LeavesCorrections (t : Calls ContactDb MergeCall) : CallAction MergeAction Empty → Prop
  | .act p .next => ∀ q, q ≠ p → ∀ c ∈ (t.calls q).correcting,
    (t.calls p).commitment.1 ≠ some c.2.source ∧
      ∀ m ∈ t.shared.moved c.1, (m.1, c.2.target) ∉ (t.calls p).commitment.2
  | _ => True

def CorrectsInTurn (t : Calls ContactDb MergeCall) (a : CallAction MergeAction Empty) : Prop :=
  ChecksUnrepeated t a ∧ LeavesCorrections t a

/-! ### Moving endpoints -/

section Moves

variable {s : ContactDb} {t : Table ℕ ContactEndpoint}

theorem moveEndpoints_cons (m : ℕ × ℕ) (moves : List (ℕ × ℕ)) (t : Table ℕ ContactEndpoint) :
    moveEndpoints (m :: moves) t =
      moveEndpoints moves (t.updateWhere m.1 (fun _ => True) fun r => { r with contact := some m.2 }).1 := rfl

theorem owner_moveEndpoints {moves : List (ℕ × ℕ)} {e c : ℕ}
    (h : ((moveEndpoints moves t).find? e).bind ContactEndpoint.contact = some c) :
    (t.find? e).bind ContactEndpoint.contact = some c ∨ (e, c) ∈ moves := by
  induction moves generalizing t with
  | nil => exact .inl h
  | cons m moves ih =>
    rw [moveEndpoints_cons] at h
    rcases ih h with hold | hmem
    · by_cases he : e = m.1
      · subst he
        rw [Table.find?_updateWhere_self] at hold
        obtain ⟨r, hr, hc⟩ := Option.bind_eq_some_iff.mp hold
        obtain ⟨r₀, -, rfl⟩ := Option.map_eq_some_iff.mp hr
        have hc : m.2 = c := Option.some.inj hc
        rw [← hc]
        exact .inr List.mem_cons_self
      · rw [Table.find?_updateWhere_ne _ _ he] at hold
        exact .inl hold
    · exact .inr (List.mem_cons_of_mem _ hmem)

theorem owner_moved {moves : List (ℕ × ℕ)} {e c : ℕ} (hrow : (t.find? e).isSome = true)
    (hall : ∀ m ∈ moves, m.1 = e → m.2 = c)
    (h : (t.find? e).bind ContactEndpoint.contact = some c ∨ ∃ m ∈ moves, m.1 = e) :
    ((moveEndpoints moves t).find? e).bind ContactEndpoint.contact = some c := by
  induction moves generalizing t with
  | nil =>
    rcases h with h | ⟨m, hm, -⟩
    · exact h
    · exact absurd hm List.not_mem_nil
  | cons m moves ih =>
    rw [moveEndpoints_cons]
    by_cases he : e = m.1
    · subst he
      obtain ⟨r, hr⟩ := Option.isSome_iff_exists.mp hrow
      refine ih ?_ (fun m' hm' => hall m' (List.mem_cons_of_mem _ hm')) (.inl ?_)
      · rw [Table.find?_updateWhere_self, hr]
        rfl
      · rw [Table.find?_updateWhere_self, hr, ← hall m List.mem_cons_self rfl]
        rfl
    · refine ih ?_ (fun m' hm' => hall m' (List.mem_cons_of_mem _ hm')) ?_
      · rw [Table.find?_updateWhere_ne _ _ he]
        exact hrow
      · rw [Table.find?_updateWhere_ne _ _ he]
        rcases h with h | ⟨m', hm', hme⟩
        · exact .inl h
        · rcases List.mem_cons.mp hm' with rfl | hm'
          · exact absurd hme.symm he
          · exact .inr ⟨m', hm', hme⟩

theorem mem_endpointsOf {e c : ℕ} : e ∈ s.endpointsOf c ↔ s.owner e = some c := by
  constructor
  · intro h
    obtain ⟨⟨e', row⟩, hmem, rfl⟩ := List.mem_map.mp h
    obtain ⟨hentry, howner⟩ := List.mem_filter.mp hmem
    have hrow : s.endpoints.find? e' = some row := Table.mem_entries.mp hentry
    unfold ContactDb.owner
    rw [hrow]
    exact of_decide_eq_true howner
  · intro h
    obtain ⟨row, hrow, howner⟩ := Option.bind_eq_some_iff.mp h
    refine List.mem_map.mpr ⟨(e, row), List.mem_filter.mpr ⟨Table.mem_entries.mpr hrow, ?_⟩, rfl⟩
    exact decide_eq_true howner

theorem mem_moved {id : ℕ} {m : ℕ × ℕ} :
    m ∈ s.moved id ↔ ∃ r ∈ s.reassignments, r.mergeEvent = some id ∧ (r.endpoint, r.previous) = m := by
  unfold ContactDb.moved
  simp only [List.mem_map, List.mem_filter, decide_eq_true_eq, and_assoc]

end Moves

/-! ### The invariant -/

/-- The alias of a contact is that of its latest merge, unless all have been reversed; the audit rows of a merge are
of its source, and name what the source owned. -/
structure MergeInv (s : ContactDb) : Prop where
  unmerged : ∀ i r, s.contacts.find? i = some r → r.mergedBy = none →
    r.mergedInto = none ∧ ∀ j e, s.event j = some e → e.source = i → j ∈ s.reversed
  merged : ∀ i r j, s.contacts.find? i = some r → r.mergedBy = some j → ∃ e, s.event j = some e ∧ e.source = i ∧
    r.mergedInto = some e.target ∧ j ∉ s.reversed ∧
      ∀ k e', s.event k = some e' → e'.source = i → k ≤ j ∧ (k ≠ j → k ∈ s.reversed)
  previous : ∀ j, ∀ m ∈ s.moved j, ∃ e, s.event j = some e ∧ m.2 = e.source
  owned : ∀ j e, s.event j = some e → ∀ x ∈ e.owned, (x, e.source) ∈ s.moved j
  reversedOld : ∀ j ∈ s.reversed, j < s.events.length

/-- What a merge has found of the source's endpoints, and an unmerge of the target's. -/
def CorrectOk (s : ContactDb) : MergeCall → Prop
  | .moving source _ todo done => ∀ e, s.owner e = some source → e ∈ todo ∨ e ∈ done
  | .restoring id event todo done =>
    s.event id = some event ∧ (∃ r, s.contacts.find? event.source = some r ∧ r.mergedBy = some id) ∧
      (∀ m ∈ todo, m ∈ s.moved id) ∧ (∀ m ∈ done, m ∈ s.moved id) ∧
      ∀ m ∈ s.moved id, m ∈ todo ∨ m ∈ done ∨ s.owner m.1 ≠ some event.target
  | _ => True

/-! ### Commits -/

section Commits

variable {p : ℕ} {s : ContactDb} {source target id : ℕ} {event : MergeEvent}

theorem event_old (done : List ℕ) {j : ℕ} {e : MergeEvent} (h : s.event j = some e) :
    (s.commitMerge source target done).event j = some e := by
  have hlt : j < s.events.length := (List.getElem?_eq_some_iff.mp h).1
  show (s.events ++ _)[j]? = some e
  rw [List.getElem?_append_left hlt]
  exact h

theorem event_commitMerge {done : List ℕ} {j : ℕ} {e : MergeEvent}
    (h : (s.commitMerge source target done).event j = some e) :
    s.event j = some e ∨ j = s.events.length ∧ e = ⟨source, target, s.endpointsOf source⟩ := by
  have h : (s.events ++ [⟨source, target, s.endpointsOf source⟩])[j]? = some e := h
  by_cases hlt : j < s.events.length
  · rw [List.getElem?_append_left hlt] at h
    exact .inl h
  · rw [List.getElem?_append_right (Nat.le_of_not_lt hlt)] at h
    obtain ⟨hzero, he⟩ := List.getElem?_eq_some_iff.mp h
    have hzero : j - s.events.length < 1 := hzero
    refine .inr ⟨by omega, ?_⟩
    have hj : j - s.events.length = 0 := by omega
    simp only [hj, List.getElem_cons_zero] at he
    exact he.symm

theorem event_new (done : List ℕ) :
    (s.commitMerge source target done).event s.events.length = some ⟨source, target, s.endpointsOf source⟩ := by
  show (s.events ++ _)[s.events.length]? = _
  rw [List.getElem?_append_right (Nat.le_refl _), Nat.sub_self]
  rfl

theorem event_lt {j : ℕ} {e : MergeEvent} (h : s.event j = some e) : j < s.events.length :=
  (List.getElem?_eq_some_iff.mp h).1

theorem mem_moved_commitMerge {done : List ℕ} {j : ℕ} {m : ℕ × ℕ} :
    m ∈ (s.commitMerge source target done).moved j ↔
      m ∈ s.moved j ∨ j = s.events.length ∧ ∃ e ∈ done, m = (e, source) := by
  rw [mem_moved, mem_moved]
  constructor
  · rintro ⟨r, hr, hj, rfl⟩
    rcases List.mem_append.mp hr with hr | hr
    · exact .inl ⟨r, hr, hj, rfl⟩
    · obtain ⟨e, he, rfl⟩ := List.mem_map.mp hr
      exact .inr ⟨(Option.some.inj hj).symm, e, he, rfl⟩
  · rintro (⟨r, hr, hj, rfl⟩ | ⟨rfl, e, he, rfl⟩)
    · exact ⟨r, List.mem_append_left _ hr, hj, rfl⟩
    · exact ⟨_, List.mem_append_right _ (List.mem_map.mpr ⟨e, he, rfl⟩), rfl, rfl⟩

theorem moved_commitUnmerge (id : ℕ) (event : MergeEvent) (done : List (ℕ × ℕ)) {j : ℕ} {m : ℕ × ℕ} :
    m ∈ (s.commitUnmerge id event done).moved j ↔ m ∈ s.moved j := by
  rw [mem_moved, mem_moved]
  constructor
  · rintro ⟨r, hr, hj, rfl⟩
    rcases List.mem_append.mp hr with hr | hr
    · exact ⟨r, hr, hj, rfl⟩
    · obtain ⟨m, -, rfl⟩ := List.mem_map.mp hr
      exact nomatch hj
  · rintro ⟨r, hr, hj, rfl⟩
    exact ⟨r, List.mem_append_left _ hr, hj, rfl⟩

theorem MergeInv.mergedBy_none (hI : MergeInv s) {i : ℕ} {r : Contact} (hr : s.contacts.find? i = some r)
    (hnone : r.mergedInto = none) : r.mergedBy = none := by
  by_contra hsome
  obtain ⟨j, hj⟩ := Option.ne_none_iff_exists'.mp hsome
  obtain ⟨e, -, -, hinto, -⟩ := hI.merged i r j hr hj
  rw [hnone] at hinto
  exact nomatch hinto

theorem MergeInv.commitMerge (hI : MergeInv s) (hroot : s.Root source) {done : List ℕ}
    (hdone : ∀ e, s.owner e = some source → e ∈ done) :
    MergeInv ((s.commitMerge source target done).release p) := by
  obtain ⟨row, hrow, hinto⟩ := hroot
  have hreversed : ∀ j e, s.event j = some e → e.source = source → j ∈ s.reversed :=
    (hI.unmerged source row hrow (hI.mergedBy_none hrow hinto)).2
  have hother : ∀ {i r}, i ≠ source →
      ((s.commitMerge source target done).release p).contacts.find? i = some r → s.contacts.find? i = some r :=
    fun hi hr => (Table.find?_updateWhere_ne _ _ hi).symm.trans hr
  have hself : ∀ {r}, ((s.commitMerge source target done).release p).contacts.find? source = some r →
      r.mergedInto = some target ∧ r.mergedBy = some s.events.length := fun hr => by
    have hr := (Table.find?_updateWhere_self _ _ _).symm.trans hr
    rw [hrow] at hr
    obtain rfl := Option.some.inj hr
    exact ⟨rfl, rfl⟩
  -- the events of another contact are old
  have hold : ∀ {i j e}, i ≠ source → (s.commitMerge source target done).event j = some e → e.source = i →
      s.event j = some e := fun hi he hsource => by
    rcases event_commitMerge he with he | ⟨-, rfl⟩
    · exact he
    · exact absurd hsource.symm hi
  refine ⟨fun i r hr hnone => ?_, fun i r j hr hj => ?_, fun j m hm => ?_, fun j e he x hx => ?_, fun j hj => ?_⟩
  · by_cases hi : i = source
    · subst hi
      rw [(hself hr).2] at hnone
      exact nomatch hnone
    · obtain ⟨hinto, hall⟩ := hI.unmerged i r (hother hi hr) hnone
      exact ⟨hinto, fun j e he hsource => hall j e (hold hi he hsource) hsource⟩
  · by_cases hi : i = source
    · subst hi
      obtain ⟨hinto, hby⟩ := hself hr
      obtain rfl := Option.some.inj (hby.symm.trans hj)
      refine ⟨_, event_new done, rfl, hinto, fun h => absurd (hI.reversedOld _ h) (Nat.lt_irrefl _), fun k e' he' hsource => ?_⟩
      have he' : (s.commitMerge _ target done).event k = some e' := he'
      rcases event_commitMerge he' with he' | ⟨rfl, -⟩
      · exact ⟨Nat.le_of_lt (event_lt he'), fun _ => hreversed k e' he' hsource⟩
      · exact ⟨Nat.le_refl _, fun h => absurd rfl h⟩
    · obtain ⟨e, he, hsource, hinto, hunreversed, hall⟩ := hI.merged i r j (hother hi hr) hj
      exact ⟨e, event_old done he, hsource, hinto, hunreversed, fun k e' he' hs => hall k e' (hold hi he' hs) hs⟩
  · rcases mem_moved_commitMerge.mp hm with hm | ⟨rfl, e, -, rfl⟩
    · obtain ⟨e, he, heq⟩ := hI.previous j m hm
      exact ⟨e, event_old done he, heq⟩
    · exact ⟨_, event_new done, rfl⟩
  · refine mem_moved_commitMerge.mpr ?_
    have he : (s.commitMerge source target done).event j = some e := he
    rcases event_commitMerge he with he | ⟨rfl, rfl⟩
    · exact .inl (hI.owned j e he x hx)
    · exact .inr ⟨rfl, x, hdone x (mem_endpointsOf.mp hx), rfl⟩
  · show j < (s.events ++ _).length
    rw [List.length_append]
    exact Nat.lt_add_right _ (hI.reversedOld j hj)

theorem MergeInv.commitUnmerge (hI : MergeInv s) (hevent : s.event id = some event) {row : Contact}
    (hrow : s.contacts.find? event.source = some row) (hby : row.mergedBy = some id) (done : List (ℕ × ℕ)) :
    MergeInv ((s.commitUnmerge id event done).release p) := by
  obtain ⟨e₀, he₀, -, -, -, hlatest⟩ := hI.merged event.source row id hrow hby
  clear he₀ e₀
  have hother : ∀ {i r}, i ≠ event.source →
      ((s.commitUnmerge id event done).release p).contacts.find? i = some r → s.contacts.find? i = some r :=
    fun hi hr => (Table.find?_updateWhere_ne _ _ hi).symm.trans hr
  have hself : ∀ {r}, ((s.commitUnmerge id event done).release p).contacts.find? event.source = some r →
      r.mergedInto = none ∧ r.mergedBy = none := fun hr => by
    have hr := (Table.find?_updateWhere_self _ _ _).symm.trans hr
    rw [hrow] at hr
    obtain rfl := Option.some.inj hr
    exact ⟨rfl, rfl⟩
  refine ⟨fun i r hr hnone => ?_, fun i r j hr hj => ?_, fun j m hm => ?_, fun j e he x hx => ?_, fun j hj => ?_⟩
  · by_cases hi : i = event.source
    · subst hi
      refine ⟨(hself hr).1, fun j e he hsource => ?_⟩
      by_cases hj : j = id
      · rw [hj]
        exact List.mem_cons_self
      · exact List.mem_cons_of_mem _ ((hlatest j e he hsource).2 hj)
    · obtain ⟨hinto, hall⟩ := hI.unmerged i r (hother hi hr) hnone
      exact ⟨hinto, fun j e he hsource => List.mem_cons_of_mem _ (hall j e he hsource)⟩
  · by_cases hi : i = event.source
    · subst hi
      rw [(hself hr).2] at hj
      exact nomatch hj
    · obtain ⟨e, he, hsource, hinto, hunreversed, hall⟩ := hI.merged i r j (hother hi hr) hj
      refine ⟨e, he, hsource, hinto, fun hmem => ?_, fun k e' he' hs => ?_⟩
      · rcases List.mem_cons.mp hmem with rfl | hmem
        · have heq : event = e := Option.some.inj (hevent.symm.trans he)
          rw [heq] at hi
          exact hi hsource.symm
        · exact hunreversed hmem
      · obtain ⟨hle, hreversed⟩ := hall k e' he' hs
        exact ⟨hle, fun hne => List.mem_cons_of_mem _ (hreversed hne)⟩
  · exact hI.previous j m ((moved_commitUnmerge id event done).mp hm)
  · exact (moved_commitUnmerge id event done).mpr (hI.owned j e he x hx)
  · rcases List.mem_cons.mp hj with rfl | hj
    · exact event_lt hevent
    · exact hI.reversedOld j hj

end Commits

/-! ### Steps -/

section Steps

variable {p q : ℕ} {s w : ContactDb} {x y : MergeCall}

theorem mergeAct_other {a : MergeAction} (ha : a ≠ .next) (h : mergeAct p s x a = some (w, y)) :
    SameTables s w ∧ ∀ t, CorrectOk t y := by
  unfold mergeAct at h
  split at h
  · obtain ⟨rfl, rfl⟩ := Prod.mk.inj (Option.some.inj h)
    refine ⟨⟨rfl, rfl, rfl, rfl, rfl⟩, fun t => ?_⟩
    split_ifs <;> trivial
  · obtain ⟨rfl, rfl⟩ := Prod.mk.inj (Option.some.inj h)
    exact ⟨⟨rfl, rfl, rfl, rfl, rfl⟩, fun t => trivial⟩
  · exact absurd rfl ha
  · exact nomatch h
  · obtain ⟨rfl, rfl⟩ := Prod.mk.inj (Option.some.inj h)
    exact ⟨⟨rfl, rfl, rfl, rfl, rfl⟩, fun t => trivial⟩
  · exact nomatch h

theorem SameTables.mergeInv (h : SameTables s w) (hI : MergeInv s) : MergeInv w := by
  obtain ⟨contacts, endpoints, events, reassignments, locks, reversed⟩ := w
  obtain ⟨rfl, rfl, rfl, rfl, rfl⟩ := h
  exact ⟨hI.unmerged, hI.merged, hI.previous, hI.owned, hI.reversedOld⟩

theorem SameTables.correctOk (h : SameTables s w) {z : MergeCall} (hz : CorrectOk s z) : CorrectOk w z := by
  obtain ⟨contacts, endpoints, events, reassignments, locks, reversed⟩ := w
  obtain ⟨rfl, rfl, rfl, rfl, rfl⟩ := h
  cases z with
  | moving | restoring => exact hz
  | idle | merging | sourceLocked | checked | mergeable | unmerging => trivial

theorem CorrectOk.previous (hI : MergeInv s) {id : ℕ} {event : MergeEvent} {todo done : List (ℕ × ℕ)}
    (hx : CorrectOk s (.restoring id event todo done)) {m : ℕ × ℕ} (hm : m ∈ done) : m.2 = event.source := by
  obtain ⟨hevent, -, -, hdone, -⟩ := hx
  obtain ⟨e, he, hprevious⟩ := hI.previous id m (hdone m hm)
  obtain rfl := Option.some.inj (hevent.symm.trans he)
  exact hprevious

theorem mergeInv_move (hI : MergeInv s) (hlock : LockOk s p x) (hx : CorrectOk s x) (h : MergeMove p s x w y) :
    MergeInv w := by
  cases h with
  | merge => exact hI.commitMerge hlock.2.1.2 fun e he => (hx e he).resolve_left List.not_mem_nil
  | unmerge hfree =>
    obtain ⟨hevent, ⟨row, hrow, hby⟩, -⟩ := hx
    exact hI.commitUnmerge hevent hrow hby _
  | merging | unmerging | stop | abort | lockSource | lockTarget | kinds | read | move | check | restore | skip =>
    exact SameTables.mergeInv (s := s) ⟨rfl, rfl, rfl, rfl, rfl⟩ hI

theorem correctOk_next (hI : MergeInv s) (hx : CorrectOk s x) (hC : ∀ id ∈ x.checks, NotRepeated s id)
    (h : MergeMove p s x w y) : CorrectOk w y := by
  cases h with
  | merging | unmerging | stop | abort | lockSource | lockTarget | kinds | merge | unmerge => trivial
  | read => exact fun e he => .inl (mem_endpointsOf.mpr he)
  | move =>
    intro e he
    rcases hx e he with hmem | hmem
    · rcases List.mem_cons.mp hmem with rfl | hmem
      · exact .inr List.mem_cons_self
      · exact .inl hmem
    · exact .inr (List.mem_cons_of_mem _ hmem)
  | check hevent hrow halias =>
    rename_i id event row
    refine ⟨hevent, ⟨row, hrow, ?_⟩, fun _ hm => hm, fun _ hm => absurd hm List.not_mem_nil, fun _ hm => .inl hm⟩
    cases hby : row.mergedBy with
    | none =>
      rw [(hI.unmerged _ _ hrow hby).1] at halias
      exact nomatch halias
    | some j =>
      obtain ⟨e, he, hsource, hinto, -, hlatest⟩ := hI.merged _ _ j hrow hby
      by_contra hne
      have hlt : id < j := by
        have hle : id ≤ j := (hlatest id event hevent rfl).1
        have hne : id ≠ j := fun h => hne (congrArg some h.symm)
        omega
      -- the alias is of a later merge of the same pair
      refine hC id rfl event hevent e ?_ ⟨hsource, Option.some.inj (hinto.symm.trans halias)⟩
      rw [List.mem_drop_iff_getElem]
      obtain ⟨hj, hget⟩ := List.getElem?_eq_some_iff.mp he
      exact ⟨j - (id + 1), by omega, by simpa [show id + 1 + (j - (id + 1)) = j by omega] using hget⟩
  | restore =>
    obtain ⟨hevent, hrow, htodo, hdone, hall⟩ := hx
    refine ⟨hevent, hrow, fun m hm => htodo m (List.mem_cons_of_mem _ hm), fun m hm => ?_, fun m hm => ?_⟩
    · rcases List.mem_cons.mp hm with rfl | hm
      · exact htodo _ List.mem_cons_self
      · exact hdone m hm
    · rcases hall m hm with hmem | hmem | hoff
      · rcases List.mem_cons.mp hmem with rfl | hmem
        · exact .inr (.inl List.mem_cons_self)
        · exact .inl hmem
      · exact .inr (.inl (List.mem_cons_of_mem _ hmem))
      · exact .inr (.inr hoff)
  | skip hfree hoff =>
    obtain ⟨hevent, hrow, htodo, hdone, hall⟩ := hx
    refine ⟨hevent, hrow, fun m hm => htodo m (List.mem_cons_of_mem _ hm), hdone, fun m hm => ?_⟩
    rcases hall m hm with hmem | hmem | hoff'
    · rcases List.mem_cons.mp hmem with rfl | hmem
      · exact .inr (.inr hoff)
      · exact .inl hmem
    · exact .inr (.inl hmem)
    · exact .inr (.inr hoff')

theorem correctOk_moving (hI : MergeInv s) (hE : Exclusive s) (hlock : LockOk s p x) (hx : CorrectOk s x)
    (h : MergeMove p s x w y) (hqp : q ≠ p) {source target : ℕ} {todo done : List ℕ} (hheld : Held s q source)
    (hz : CorrectOk s (.moving source target todo done)) : CorrectOk w (.moving source target todo done) := by
  cases h with
  | merge =>
    intro e he
    rcases owner_moveEndpoints he with he | hmem
    · exact hz e he
    · obtain ⟨e', -, heq⟩ := List.mem_map.mp hmem
      -- the merge would have its target locked
      obtain rfl := (Prod.mk.inj heq).2
      exact absurd (hE _ hheld _ hlock.2.2.1 rfl) hqp
  | unmerge hfree =>
    intro e he
    rcases owner_moveEndpoints he with he | hmem
    · exact hz e he
    · have hsource : source = _ := hx.previous hI hmem
      rw [hsource] at hheld
      exact absurd (free_iff.mp hfree _ hheld rfl) hqp
  | merging | unmerging | stop | abort | lockSource | lockTarget | kinds | read | move | check | restore | skip =>
    exact SameTables.correctOk (s := s) ⟨rfl, rfl, rfl, rfl, rfl⟩ hz

theorem correctOk_restoring (hI : MergeInv s) (hlock : LockOk s p x) (h : MergeMove p s x w y) {id : ℕ}
    {event : MergeEvent} {todo done : List (ℕ × ℕ)} (halias : x.commitment.1 ≠ some event.source)
    (hmoves : ∀ m ∈ s.moved id, (m.1, event.target) ∉ x.commitment.2)
    (hz : CorrectOk s (.restoring id event todo done)) : CorrectOk w (.restoring id event todo done) := by
  have hstill := hz
  obtain ⟨hevent, ⟨row, hrow, hby⟩, htodo, hdone, hall⟩ := hz
  obtain ⟨e, he, -, hinto, -⟩ := hI.merged _ _ id hrow hby
  obtain rfl := Option.some.inj (hevent.symm.trans he)
  have hoff : ∀ m ∈ s.moved id, s.owner m.1 ≠ some event.target →
      ((moveEndpoints x.commitment.2 s.endpoints).find? m.1).bind ContactEndpoint.contact ≠ some event.target :=
    fun m hm hoff hon => (owner_moveEndpoints hon).elim hoff (hmoves m hm)
  cases h with
  | merge =>
    rename_i source target done'
    have hne : event.source ≠ source := by
      rintro heq
      obtain ⟨row', hrow', hnone⟩ := hlock.2.1.2
      rw [← heq, hrow] at hrow'
      obtain rfl := Option.some.inj hrow'
      rw [hnone] at hinto
      exact nomatch hinto
    have hmoved : ∀ m, m ∈ (s.commitMerge source target done').moved id ↔ m ∈ s.moved id := fun m => by
      rw [mem_moved_commitMerge]
      exact or_iff_left fun hnew => absurd hnew.1 (Nat.ne_of_lt (event_lt hevent))
    refine ⟨event_old done' hevent, ⟨row, (Table.find?_updateWhere_ne _ _ hne).trans hrow, hby⟩,
      fun m hm => (hmoved m).mpr (htodo m hm), fun m hm => (hmoved m).mpr (hdone m hm), fun m hm => ?_⟩
    have hm : m ∈ s.moved id := (hmoved m).mp hm
    exact (hall m hm).imp_right (Or.imp_right (hoff m hm))
  | unmerge hfree =>
    rename_i id' event' done'
    have hne : event.source ≠ event'.source := fun heq => halias (congrArg some heq.symm)
    refine ⟨hevent, ⟨row, (Table.find?_updateWhere_ne _ _ hne).trans hrow, hby⟩,
      fun m hm => (moved_commitUnmerge id' event' done').mpr (htodo m hm),
      fun m hm => (moved_commitUnmerge id' event' done').mpr (hdone m hm), fun m hm => ?_⟩
    have hm : m ∈ s.moved id := (moved_commitUnmerge id' event' done').mp hm
    exact (hall m hm).imp_right (Or.imp_right (hoff m hm))
  | merging | unmerging | stop | abort | lockSource | lockTarget | kinds | read | move | check | restore | skip =>
    exact SameTables.correctOk (s := s) ⟨rfl, rfl, rfl, rfl, rfl⟩ hstill

theorem corrected_of_commit (hI : MergeInv s) {id : ℕ} {event : MergeEvent} {done : List (ℕ × ℕ)}
    (hx : CorrectOk s (.restoring id event [] done)) :
    Corrected s id event ((s.commitUnmerge id event done).release p) := by
  have hprevious : ∀ m ∈ done, m.2 = event.source := fun m hm => hx.previous hI hm
  obtain ⟨hevent, ⟨row, hrow, hby⟩, -, -, hall⟩ := hx
  obtain ⟨e, he, -, -, hunreversed, hlatest⟩ := hI.merged _ _ id hrow hby
  obtain rfl := Option.some.inj (hevent.symm.trans he)
  refine ⟨hunreversed, fun j e he hsource => (hlatest j e he hsource).1, fun r hr => ?_, fun i hi hon => ?_⟩
  · obtain rfl := Option.some.inj (hrow.symm.trans hr)
    exact hby
  · have hmoved : (i, event.source) ∈ s.moved id := hI.owned id event hevent i hi
    have hdone : (i, event.source) ∈ done := by
      rcases hall _ hmoved with hmem | hmem | hoff
      · exact absurd hmem List.not_mem_nil
      · exact hmem
      · exact absurd hon hoff
    have hfound : (s.endpoints.find? i).isSome = true := by
      obtain ⟨r, hr, -⟩ := Option.bind_eq_some_iff.mp hon
      rw [hr]
      rfl
    exact owner_moved hfound (fun m hm _ => hprevious m hm) (.inr ⟨_, hdone, rfl⟩)

end Steps

/-! ### Runs -/

def CorrectionsHold : Calls ContactDb MergeCall → Prop :=
  Holds (fun s => LinkInv s ∧ MergeInv s) fun s p x => LockOk s p x ∧ CorrectOk s x

theorem correctionsHold_step (t : Calls ContactDb MergeCall) (a : CallAction MergeAction Empty)
    (t' : Calls ContactDb MergeCall) (hI : CorrectionsHold t) (hC : CorrectsInTurn t a)
    (h : mergeSystem.step t a = some t') : CorrectionsHold t' := by
  refine Machine.holds_step (M := mergeSystem) (C := CorrectsInTurn) (fun t p a w y hI hC hact => ?_)
    (fun t e => nomatch e) t a t' hI hC h
  obtain ⟨⟨hlink, hmerge⟩, hcalls⟩ := hI
  obtain ⟨hlock, hx⟩ := hcalls p
  have hmove : MergeMove p t.shared (t.calls p) w y := mergeAct_move hact
  refine ⟨⟨hlink.move hlock hmove, mergeInv_move hmerge hlock hx hmove⟩, ⟨hlock.next hmove, ?_⟩, fun q hq =>
    ⟨LockOk.kept hlink.exclusive hlock hmove hq (hcalls q).1, ?_⟩⟩
  · by_cases ha : a = .next
    · subst ha
      exact correctOk_next hmerge hx hC.1 hmove
    · exact (mergeAct_other ha hact).2 w
  · have hz : LockOk t.shared q (t.calls q) ∧ CorrectOk t.shared (t.calls q) := hcalls q
    by_cases ha : a = .next
    · subst ha
      have hleaves : ∀ c ∈ (t.calls q).correcting, (t.calls p).commitment.1 ≠ some c.2.source ∧
        ∀ m ∈ t.shared.moved c.1, (m.1, c.2.target) ∉ (t.calls p).commitment.2 := hC.2 q hq
      generalize t.calls q = z at hz hleaves
      cases z with
      | moving source target todo done =>
        exact correctOk_moving hmerge hlink.exclusive hlock hx hmove hq hz.1.2.1.1 hz.2
      | restoring id event todo done =>
        obtain ⟨halias, hmoves⟩ := hleaves (id, event) rfl
        exact correctOk_restoring hmerge hlock hmove halias hmoves hz.2
      | idle | merging | sourceLocked | checked | mergeable | unmerging => trivial
    · exact (mergeAct_other ha hact).1.correctOk hz.2

theorem correctsOnly_step (t : Calls ContactDb MergeCall) (a : CallAction MergeAction Empty)
    (t' : Calls ContactDb MergeCall) (hI : CorrectionsHold t) (h : mergeSystem.step t a = some t') :
    CorrectsOnly t a t' := by
  cases a with
  | env e => trivial
  | act p a =>
    obtain ⟨w, y, hact, rfl⟩ := Machine.step_act h
    have hact : mergeAct p t.shared (t.calls p) a = some (w, y) := hact
    by_cases ha : a = .next
    · subst ha
      refine ⟨?_, fun id event done _ hp => ?_⟩
      · have hmove : MergeMove p t.shared (t.calls p) w y := mergeAct_move hact
        rw [Calls.shared_set]
        generalize t.calls p = x at hmove
        cases hmove with
        | merge | unmerge => exact .inl ⟨rfl, rfl⟩
        | merging | unmerging | stop | abort | lockSource | lockTarget | kinds | read | move | check | restore | skip =>
          exact .inr ⟨rfl, rfl, rfl, rfl, rfl⟩
      · rw [hp] at hact
        have hnext : (if t.shared.free p (.contact event.source) = true then
          some ((t.shared.commitUnmerge id event done).release p, MergeCall.idle) else none) = some (w, y) := hact
        obtain ⟨-, hw⟩ := Option.ite_none_right_eq_some.mp hnext
        obtain ⟨rfl, rfl⟩ := Prod.mk.inj (Option.some.inj hw)
        exact corrected_of_commit hI.1.2 (hp ▸ (hI.2 p).2)
    · exact ⟨.inr (mergeAct_other ha hact).1, fun _ _ _ h => absurd h ha⟩

theorem correctionsHold_start {s : ContactDb} (h : Unmerged s) : CorrectionsHold (.start s .idle) := by
  have hevents : ∀ j e, s.event j ≠ some e := fun j e he => by
    unfold ContactDb.event at he
    rw [h.events] at he
    exact nomatch he
  have hlocks : LocksHold (.start s .idle) := locksHold_start h
  refine holds_start ⟨hlocks.1, fun i r hr _ => ⟨(h.contacts i r hr).1, fun j e he => absurd he (hevents j e)⟩,
    fun i r j hr hj => ?_, fun j m hm => ?_, fun j e he => absurd he (hevents j e), fun j hj => ?_⟩ fun _ => ⟨trivial, trivial⟩
  · rw [(h.contacts i r hr).2] at hj
    exact nomatch hj
  · obtain ⟨r, hr, -⟩ := mem_moved.mp hm
    rw [h.reassignments] at hr
    exact absurd hr List.not_mem_nil
  · rw [h.reversed] at hj
    exact absurd hj List.not_mem_nil

/-- **Only the merge in effect is reversed**, as long as no merge has been repeated and corrections do not overlap. -/
theorem unmerge_corrects (s : ContactDb) (hs : Unmerged s) (as : List (CallAction MergeAction Empty))
    (h : Meets mergeSystem.step CorrectsInTurn (.start s .idle) as) :
    Steps mergeSystem.step CorrectsOnly (.start s .idle) as :=
  steps_of_meets (fun t a t' hI hC hstep => ⟨correctionsHold_step t a t' hI hC hstep, correctsOnly_step t a t' hI hstep⟩)
    (correctionsHold_start hs) h

def twoEndpoints : Table ℕ ContactEndpoint := (Table.empty.put 0 ⟨"phone", some 0⟩).put 1 ⟨"email", some 0⟩

/-- Contact 0 is merged into 1 by call `p`; the last statement commits. -/
def mergeInto (p moved : ℕ) : List (CallAction MergeAction Empty) :=
  .act p (.mergeContacts 0 1) :: List.replicate (moved + 5) (.act p .next)

def unmergeEvent (p id moved : ℕ) : List (CallAction MergeAction Empty) :=
  .act p (.unmergeContacts id) :: List.replicate (moved + 2) (.act p .next)

/-- A merge is reversed, made again and reversed again, by its own event. -/
theorem unmerge_corrects_again : Steps mergeSystem.step CorrectsOnly (.start (unmerged 2 twoEndpoints) .idle)
    (mergeInto 0 2 ++ unmergeEvent 1 0 2 ++ mergeInto 0 2 ++ unmergeEvent 1 1 2) := by
  refine unmerge_corrects _ (unmerged_unmerged 2 twoEndpoints) _ (Meets.and (meets_of_check (by decide +kernel)) ?_)
  have hidle : MergeCall.idle.correcting = none := rfl
  refine meets_of_below (P := fun x => x.correcting = none) 2 hidle (fun s a h => ?_) (fun _ _ => rfl) rfl
    (meets_of_check (by decide +kernel))
  cases a with
  | env e => trivial
  | act p a =>
    cases a with
    | next =>
      intro q hq c hc
      rw [h q fun hp => hq (Option.some.inj hp).symm] at hc
      exact nomatch hc
    | mergeContacts | unmergeContacts | abort => trivial

/-- An event that has been reversed is reversed again after the merge has been repeated. -/
theorem unmerge_repeats : ¬ ∀ as, Steps mergeSystem.step CorrectsOnly (.start (unmerged 2 twoEndpoints) .idle) as := by
  intro h
  have hrun : (runActions mergeSystem.step (.start (unmerged 2 twoEndpoints) .idle)
      (mergeInto 0 2 ++ unmergeEvent 1 0 2 ++ mergeInto 0 2 ++ (unmergeEvent 1 0 2).dropLast)).map
      (fun t => (t.calls 1, t.shared.reversed, (mergeSystem.step t (.act 1 .next)).isSome)) =
        some (.restoring 0 ⟨0, 1, [1, 0]⟩ [] [(1, 0), (0, 0)], [0], true) := by decide +kernel
  obtain ⟨t, ht, hend⟩ := Option.map_eq_some_iff.mp hrun
  obtain ⟨hcall, hend⟩ := Prod.mk.inj hend
  obtain ⟨hreversed, hsome⟩ := Prod.mk.inj hend
  obtain ⟨t', ht'⟩ := Option.isSome_iff_exists.mp hsome
  have hlast : CorrectsOnly t (.act 1 .next) t' := (h (_ ++ [.act 1 .next])).last ht ht'
  have hunreversed : 0 ∉ t.shared.reversed := (hlast.2 0 _ _ rfl hcall).unreversed
  rw [hreversed] at hunreversed
  exact hunreversed List.mem_cons_self

end TeamInbox.Contacts
