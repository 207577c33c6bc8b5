import TeamInbox.Api.StoredStatus
import TeamInbox.Worker.Publisher

/-!
# TeamInbox.Worker.StatusConvergence — the stored status follows the published one

When the outbox is empty and the stream is applied, the stored status of the connection is that of the
status the worker published last, provided no earlier status reached JetStream after it.  Nothing
downstream of the outbox compares the times of two statuses.
-/

namespace TeamInbox.Worker

open TeamInbox.Lib
open TeamInbox.Api (ConnectionEvent StatusType TenantDb Admission Verdict SessionID Settles)

/-! ### What is claimed -/

/-- The latest event that changes the stored status. -/
def lastStored (l : List PendingEvent) : Option PendingEvent := l.reverse.find? (·.stores)

/-- Every row is delivered, and the API has applied the stream. -/
def AllApplied (w : StatusWorld) : Prop :=
  (∀ r ∈ w.rows, r.publishedAt ≠ none) ∧ w.applied = w.stream.length

/-- The stored status is what the API made of the event. -/
def Corresponds (sid : SessionID) (w : StatusWorld) (e : PendingEvent) : Prop :=
  ∃ v status, (e.id, v) ∈ w.verdicts ∧ e.payload = some status ∧ Settles sid status.type v w.db

def Converged (sid : SessionID) (w : StatusWorld) : Prop :=
  AllApplied w → ∀ e, lastStored w.saved = some e → Corresponds sid w e

/-- JetStream accepts no status after it has accepted the one that was published last. -/
def InOrder (_ : Who Unit) (op : PublisherOp) (f : PublisherChoice) (w : StatusWorld) : Prop :=
  ∀ event msgID, op = .jsPublish event msgID → f.fault ≠ .failed → event.stores = true →
    (∀ e ∈ w.stream, e.id ≠ event.id) → ∀ newest, lastStored w.saved = some newest → newest ∉ w.stream

/-! ### The invariant -/

structure StatusInv (sid : SessionID) (w : StatusWorld) : Prop where
  ids : ∀ e ∈ w.saved, ∀ e' ∈ w.saved, e.id = e'.id → e = e'
  streamed : ∀ e ∈ w.stream, e ∈ w.saved
  rows : ∀ r ∈ w.rows, r.event ∈ w.saved
  kept : ∀ e ∈ w.saved, e ∈ w.stream ∨ ∃ r ∈ w.rows, r.event = e ∧ r.publishedAt = none
  newest : ∀ e, lastStored w.saved = some e → e ∈ w.stream → lastStored w.stream = some e
  bound : w.applied ≤ w.stream.length
  /-- A handler that threw may have left a part of the next event. -/
  current : ∀ e, lastStored (w.stream.take w.applied) = some e →
    Corresponds sid w e ∨ ∃ n, w.stream[w.applied]? = some n ∧ n.stores = true

structure StatusGrows (w w' : StatusWorld) : Prop where
  saved : ∀ e ∈ w.saved, e ∈ w'.saved
  stream : ∀ e ∈ w.stream, e ∈ w'.stream

theorem StatusGrows.refl (w : StatusWorld) : StatusGrows w w := ⟨fun _ h => h, fun _ h => h⟩

def statusContract (sid : SessionID) : Contract PublisherOp StatusWorld Unit PublisherChoice where
  inv := StatusInv sid
  rely _ := StatusGrows
  admits := InOrder
  ok _ _ _ _ := True
  refl _ := StatusGrows.refl
  trans _ _ _ _ h h' := ⟨fun e he => h'.saved e (h.saved e he), fun e he => h'.stream e (h.stream e he)⟩

section Last

variable {l : List PendingEvent} {e : PendingEvent}

theorem lastStored_append : lastStored (l ++ [e]) = if e.stores then some e else lastStored l := by
  unfold lastStored
  rw [List.reverse_append, List.reverse_singleton, List.singleton_append, List.find?_cons]
  cases e.stores <;> rfl

theorem lastStored_mem (h : lastStored l = some e) : e ∈ l :=
  List.mem_reverse.mp (List.mem_of_find?_eq_some h)

theorem lastStored_stores (h : lastStored l = some e) : e.stores = true := List.find?_some h

end Last

section Steps

variable {sid : SessionID} {w : StatusWorld}

theorem StatusInv.converged (hI : StatusInv sid w) : Converged sid w := by
  rintro ⟨hrows, happlied⟩ e he
  have hstream : e ∈ w.stream := by
    rcases hI.kept e (lastStored_mem he) with h | ⟨r, hr, -, hpub⟩
    · exact h
    · exact absurd hpub (hrows r hr)
  have hlast : lastStored (w.stream.take w.applied) = some e := by
    rw [happlied, List.take_length]
    exact hI.newest e he hstream
  rcases hI.current e hlast with h | ⟨n, hn, -⟩
  · exact h
  · rw [happlied, List.getElem?_length] at hn
    cases hn

theorem StatusInv.save {event : PendingEvent} {now : ℕ} (hI : StatusInv sid w)
    (hfresh : event.id ∉ w.saved.map (·.id)) : StatusInv sid (w.save event now) := by
  have hnew : ∀ e ∈ w.saved, e.id ≠ event.id := fun e he h =>
    hfresh (List.mem_map.mpr ⟨e, he, h⟩)
  refine ⟨?_, ?_, ?_, ?_, ?_, hI.bound, hI.current⟩
  · intro e he e' he' hid
    rcases List.mem_append.mp he with h | h <;> rcases List.mem_append.mp he' with h' | h'
    · exact hI.ids e h e' h' hid
    · rw [List.mem_singleton.mp h'] at hid
      exact absurd hid (hnew e h)
    · rw [List.mem_singleton.mp h] at hid
      exact absurd hid.symm (hnew e' h')
    · rw [List.mem_singleton.mp h, List.mem_singleton.mp h']
  · exact fun e he => List.mem_append_left _ (hI.streamed e he)
  · intro r hr
    rcases List.mem_append.mp hr with h | h
    · exact List.mem_append_left _ (hI.rows r h)
    · rw [List.mem_singleton.mp h]
      exact List.mem_append_right _ (List.mem_singleton_self event)
  · intro e he
    rcases List.mem_append.mp he with h | h
    · rcases hI.kept e h with hs | ⟨r, hr, hev, hpub⟩
      · exact Or.inl hs
      · exact Or.inr ⟨r, List.mem_append_left _ hr, hev, hpub⟩
    · rw [List.mem_singleton.mp h]
      exact Or.inr ⟨_, List.mem_append_right _ (List.mem_singleton_self _), rfl, rfl⟩
  · -- the new event has not been streamed
    intro e he hs
    have hsaved := hI.streamed e hs
    change lastStored (w.saved ++ [event]) = some e at he
    rw [lastStored_append] at he
    split_ifs at he with hst
    · obtain rfl := Option.some.inj he
      exact absurd rfl (hnew _ hsaved)
    · exact hI.newest e he hs

theorem StatusInv.mark {id : EventID} {now : ℕ} (hI : StatusInv sid w)
    (hid : ∃ e ∈ w.stream, e.id = id) : StatusInv sid (w.mark id now) := by
  obtain ⟨e₀, he₀, hid₀⟩ := hid
  refine ⟨hI.ids, hI.streamed, ?_, ?_, hI.newest, hI.bound, hI.current⟩
  · intro r hr
    obtain ⟨r₀, hr₀, rfl⟩ := List.mem_map.mp hr
    have hsaved := hI.rows r₀ (List.mem_of_mem_filter hr₀)
    split_ifs <;> exact hsaved
  · intro e he
    by_cases heid : e.id = id
    · rw [hI.ids e he e₀ (hI.streamed e₀ he₀) (heid.trans hid₀.symm)]
      exact Or.inl he₀
    · rcases hI.kept e he with hs | ⟨r, hr, rfl, hpub⟩
      · exact Or.inl hs
      · refine Or.inr ⟨r, List.mem_map.mpr ⟨r, List.mem_filter.mpr ⟨hr, ?_⟩, if_neg heid⟩, rfl, hpub⟩
        simp [heid]

theorem StatusInv.accept {event : PendingEvent} (hI : StatusInv sid w) (hsaved : event ∈ w.saved)
    (horder : event.stores = true → (∀ e ∈ w.stream, e.id ≠ event.id) →
      ∀ newest, lastStored w.saved = some newest → newest ∉ w.stream) :
    StatusInv sid (w.accept event (some event.id)) := by
  unfold StatusWorld.accept
  split_ifs with hdup
  · exact hI
  have hnew : ∀ e ∈ w.stream, e.id ≠ event.id := fun e he h => hdup ⟨_, rfl, e, he, h⟩
  refine ⟨hI.ids, ?_, hI.rows, ?_, ?_, ?_, ?_⟩
  · intro e he
    rcases List.mem_append.mp he with h | h
    · exact hI.streamed e h
    · rw [List.mem_singleton.mp h]
      exact hsaved
  · intro e he
    rcases hI.kept e he with hs | hrow
    · exact Or.inl (List.mem_append_left _ hs)
    · exact Or.inr hrow
  · intro e he hs
    change lastStored (w.stream ++ [event]) = some e
    rw [lastStored_append]
    rcases List.mem_append.mp hs with h | h
    · split_ifs with hst
      · exact absurd h (horder hst hnew e he)
      · exact hI.newest e he h
    · obtain rfl := List.mem_singleton.mp h
      rw [if_pos (lastStored_stores he)]
  · exact Nat.le_trans hI.bound (by simp)
  · intro e he
    have htake : (w.stream ++ [event]).take w.applied = w.stream.take w.applied :=
      List.take_append_of_le_length hI.bound
    change lastStored ((w.stream ++ [event]).take w.applied) = some e at he
    rw [htake] at he
    rcases hI.current e he with h | ⟨n, hn, hst⟩
    · exact Or.inl h
    · exact Or.inr ⟨n, List.getElem?_append_left (List.getElem?_eq_some_iff.mp hn).1 ▸ hn, hst⟩

theorem Corresponds.verdict {e : PendingEvent} {a : ℕ} {x : EventID × Verdict} (h : Corresponds sid w e) :
    Corresponds sid { w with applied := a, verdicts := x :: w.verdicts } e := by
  obtain ⟨v, status, hv, hp, hs⟩ := h
  exact ⟨v, status, List.mem_cons_of_mem _ hv, hp, hs⟩

theorem StatusInv.skip {n : PendingEvent} {v : Verdict} (hI : StatusInv sid w)
    (hn : w.stream[w.applied]? = some n) (hst : n.stores = false) :
    StatusInv sid { w with applied := w.applied + 1, verdicts := (n.id, v) :: w.verdicts } := by
  obtain ⟨hlt, hget⟩ := List.getElem?_eq_some_iff.mp hn
  refine ⟨hI.ids, hI.streamed, hI.rows, hI.kept, hI.newest, hlt, ?_⟩
  intro e he
  change lastStored (w.stream.take (w.applied + 1)) = some e at he
  rw [List.take_succ_eq_append_getElem hlt, hget, lastStored_append, if_neg (by simp [hst])] at he
  rcases hI.current e he with h | ⟨n', hn', hst'⟩
  · exact Or.inl h.verdict
  · rw [hn] at hn'
    obtain rfl := Option.some.inj hn'
    rw [hst] at hst'
    cases hst'

theorem StatusInv.deliver {trimLower : String → String} {now : ℕ} {admission : Option Admission}
    {faults : List Fault} {w' : StatusWorld} (hI : StatusInv sid w)
    (h : w.deliver trimLower sid now admission faults = some w') : StatusInv sid w' := by
  unfold StatusWorld.deliver at h
  split at h
  · cases h
  · next id subject hn =>
    obtain rfl := Option.some.inj h
    exact hI.skip hn rfl
  · next id subject status hn =>
    obtain ⟨hlt, hget⟩ := List.getElem?_eq_some_iff.mp hn
    by_cases hst : status.type.stores = true
    · split at h
      · next v s hrun =>
        obtain rfl := Option.some.inj h
        refine ⟨hI.ids, hI.streamed, hI.rows, hI.kept, hI.newest, hlt, ?_⟩
        intro e he
        change lastStored (w.stream.take (w.applied + 1)) = some e at he
        have hstores : PendingEvent.stores ⟨id, subject, some status⟩ = true := hst
        rw [List.take_succ_eq_append_getElem hlt, hget, lastStored_append, if_pos hstores] at he
        obtain rfl := Option.some.inj he
        exact Or.inl ⟨v, status, List.mem_cons_self, rfl, Api.settles_of_processed hrun⟩
      · next e s hrun =>
        obtain rfl := Option.some.inj h
        exact ⟨hI.ids, hI.streamed, hI.rows, hI.kept, hI.newest, hI.bound, fun _ _ => Or.inr ⟨_, hn, hst⟩⟩
    · have herr : status.type = .error := by
        cases htype : status.type <;> simp [htype, StatusType.stores] at hst ⊢
      have hkeep : ((Api.processConnectionEvent trimLower now status sid admission).run
          ⟨w.db, faults⟩).2.db = w.db := Api.processed_error herr
      split at h
      · next v s hrun =>
        obtain rfl := Option.some.inj h
        rw [hrun] at hkeep
        rw [hkeep]
        exact hI.skip hn (by simpa [PendingEvent.stores] using hst)
      · next e s hrun =>
        obtain rfl := Option.some.inj h
        rw [hrun] at hkeep
        rw [hkeep]
        exact hI

end Steps

/-! ### The publisher keeps the contract -/

section Publisher

variable {trimLower : String → String} {sid : SessionID} {t : Who Unit} {w : StatusWorld}

abbrev Publishes {α : Type} (trimLower : String → String) (sid : SessionID) (t : Who Unit)
    (p : PublisherProc α) (w : StatusWorld) (M : α → StatusWorld → Prop) : Prop :=
  Yields (statusSystem trimLower sid) (statusContract sid) t p w M

theorem saved_stable (e : PendingEvent) : Stable (statusContract sid) t fun w => e ∈ w.saved :=
  fun _ _ he hR _ => hR.saved e he

theorem streamed_stable (id : EventID) :
    Stable (statusContract sid) t fun w => ∃ e ∈ w.stream, e.id = id :=
  fun _ _ ⟨e, he, hid⟩ hR _ => ⟨e, hR.stream e he, hid⟩

theorem publishes_op {op : PublisherOp} {A : StatusWorld → Prop} {M : op.Resp → StatusWorld → Prop}
    (hA : Stable (statusContract sid) t A) (hw : A w)
    (h : ∀ w₁ f b w₂, A w₁ → StatusInv sid w₁ → InOrder t op f w₁ → publisherExec op f w₁ = some (b, w₂) →
      StatusInv sid w₂ ∧ StatusGrows w₁ w₂ ∧ M b w₂) :
    Publishes trimLower sid t (PublisherOp.perform op) w M :=
  Yields.call hA hw fun w₁ f b w₂ hw₁ hI hadm hx =>
    have ⟨hinv, hgrows, hM⟩ := h w₁ f b w₂ hw₁ hI hadm hx
    ⟨⟨trivial, hinv, fun _ _ => hgrows⟩, hM⟩

theorem answer_of {α : Type} {f : Fault} {text : String} {a : α} {w w' : StatusWorld}
    {r : Except String α} {w₂ : StatusWorld} (h : some (f.answer text a w w') = some (r, w₂)) :
    (w₂ = w ∧ r = .error text) ∨ (f ≠ .failed ∧ w₂ = w' ∧ (r = .ok a ∨ r = .error text)) := by
  cases f with
  | none =>
    obtain ⟨rfl, rfl⟩ := Prod.mk.inj (Option.some.inj h)
    exact Or.inr ⟨nofun, rfl, Or.inl rfl⟩
  | failed =>
    obtain ⟨rfl, rfl⟩ := Prod.mk.inj (Option.some.inj h)
    exact Or.inl ⟨rfl, rfl⟩
  | lost =>
    obtain ⟨rfl, rfl⟩ := Prod.mk.inj (Option.some.inj h)
    exact Or.inr ⟨nofun, rfl, Or.inr rfl⟩

theorem publishes_look {op : PublisherOp} {A : StatusWorld → Prop}
    (hA : Stable (statusContract sid) t A) (hw : A w)
    (hop : ∀ f w₁ b w₂, publisherExec op f w₁ = some (b, w₂) → w₂ = w₁) :
    Publishes trimLower sid t (PublisherOp.perform op) w fun _ w' => A w' := by
  refine publishes_op hA hw fun w₁ f b w₂ hw₁ hI _ hx => ?_
  obtain rfl := hop f w₁ b w₂ hx
  exact ⟨hI, StatusGrows.refl _, hw₁⟩

theorem publishes_send {event : PendingEvent} (hw : event ∈ w.saved) :
    Publishes trimLower sid t (PublisherOp.send event (some event.id)) w fun r w' =>
      event ∈ w'.saved ∧ (r = .ok () → ∃ e ∈ w'.stream, e.id = event.id) := by
  refine publishes_op (saved_stable event) hw fun w₁ f b w₂ hw₁ hI horder hx => ?_
  rcases answer_of hx with ⟨rfl, rfl⟩ | ⟨hran, rfl, -⟩
  · exact ⟨hI, StatusGrows.refl _, hw₁, nofun⟩
  have hinv := hI.accept hw₁ (horder event (some event.id) rfl hran)
  refine ⟨hinv, ?_⟩
  unfold StatusWorld.accept
  split_ifs with hdup
  · obtain ⟨id, hid, hseen⟩ := hdup
    obtain rfl := Option.some.inj hid
    exact ⟨StatusGrows.refl _, hw₁, fun _ => hseen⟩
  · exact ⟨⟨fun _ h => h, fun _ h => List.mem_append_left _ h⟩, hw₁,
      fun _ => ⟨event, List.mem_append_right _ (List.mem_singleton_self _), rfl⟩⟩

theorem publishes_retry {event : PendingEvent} {left : ℕ} (hw : event ∈ w.saved) :
    Publishes trimLower sid t (publishEventWithRetry event (some event.id) left) w fun r w' =>
      r = .ok () → ∃ e ∈ w'.stream, e.id = event.id := by
  induction left generalizing w with
  | zero => exact Yields.pure nofun
  | succ left ih =>
    refine Yields.bind (publishes_send hw) fun r w' h => ?_
    cases r with
    | ok u => exact Yields.pure fun _ => h.2 rfl
    | error e =>
      dsimp only
      split_ifs
      · exact Yields.pure nofun
      · exact ih h.1

theorem publishes_mark {id : EventID} (hw : ∃ e ∈ w.stream, e.id = id) :
    Publishes trimLower sid t (PublisherOp.mark id) w fun _ _ => True := by
  refine publishes_op (streamed_stable id) hw fun w₁ f b w₂ hw₁ hI _ hx => ?_
  rcases answer_of hx with ⟨rfl, rfl⟩ | ⟨-, rfl, -⟩
  · exact ⟨hI, StatusGrows.refl _, trivial⟩
  · exact ⟨hI.mark hw₁, ⟨fun _ h => h, fun _ h => h⟩, trivial⟩

theorem publishes_pending {event : PendingEvent} (hw : event ∈ w.saved) :
    Publishes trimLower sid t (publishPendingEvent event) w fun _ _ => True := by
  refine Yields.bind (publishes_retry hw) fun r w' h => ?_
  cases r with
  | error e =>
    refine Yields.bind (publishes_look (stable_const True) trivial ?_) fun _ _ _ => Yields.pure trivial
    intro f w₁ b w₂ hx
    rcases answer_of hx with ⟨rfl, -⟩ | ⟨-, rfl, -⟩ <;> rfl
  | ok u =>
    refine Yields.bind (publishes_mark (h rfl)) fun r _ _ => ?_
    cases r <;> exact Yields.pure trivial

theorem publishes_flushEach {events : List PendingEvent} (hw : ∀ e ∈ events, e ∈ w.saved) :
    Publishes trimLower sid t (flushEach events) w fun _ _ => True := by
  induction events generalizing w with
  | nil => exact Yields.pure trivial
  | cons event rest ih =>
    have hstable : Stable (statusContract sid) t fun w => ∀ e ∈ event :: rest, e ∈ w.saved :=
      fun _ _ h hR _ e he => hR.saved e (h e he)
    refine Yields.bind (publishes_look hstable hw ?_) fun done w₁ h₁ => ?_
    · intro f w₁ b w₂ hx
      exact ((Prod.mk.inj (Option.some.inj hx)).2).symm
    · cases done with
      | true => exact Yields.pure trivial
      | false =>
        have hrest : Stable (statusContract sid) t fun w => ∀ e ∈ rest, e ∈ w.saved :=
          fun _ _ h hR _ e he => hR.saved e (h e he)
        refine Yields.bind (Yields.frame (fun _ _ _ h => h) hrest
          (fun e he => h₁ e (List.mem_cons_of_mem _ he))
          (publishes_pending (h₁ event List.mem_cons_self))) fun _ w₂ h₂ => ?_
        exact ih h₂.2

theorem publishes_flush : Publishes trimLower sid t flushPendingEvents w fun _ _ => True := by
  have hlist : Publishes trimLower sid t (PublisherOp.list eventOutboxBatchSize) w fun r w' =>
      ∀ events, r = .ok events → ∀ e ∈ events, e ∈ w'.saved := by
    refine publishes_op (stable_const True) trivial fun w₁ f b w₂ _ hI _ hx => ?_
    have hpending : ∀ e ∈ w₁.pending eventOutboxBatchSize, e ∈ w₁.saved := by
      intro e he
      obtain ⟨r, hr, rfl⟩ := List.mem_map.mp he
      have hrow := (List.mem_insertionSort _).mp (List.mem_of_mem_take hr)
      exact hI.rows r (List.mem_of_mem_filter hrow)
    rcases answer_of hx with ⟨rfl, rfl⟩ | ⟨-, rfl, rfl | rfl⟩
    · exact ⟨hI, StatusGrows.refl _, nofun⟩
    · exact ⟨hI, StatusGrows.refl _, fun events h => Except.ok.inj h ▸ hpending⟩
    · exact ⟨hI, StatusGrows.refl _, nofun⟩
  refine Yields.bind hlist fun r w' h => ?_
  cases r with
  | error e => exact Yields.pure trivial
  | ok events => exact publishes_flushEach (h events rfl)

theorem publishes_publish {subject : Subject} {payload : Option ConnectionEvent}
    (hpersist : shouldPersistEventSubject subject = true) :
    Publishes trimLower sid t (publish subject payload) w fun _ _ => True := by
  have hsave : Publishes trimLower sid t (PublisherOp.save subject payload) w fun r w' =>
      ∀ event, r = .ok event → event ∈ w'.saved := by
    refine publishes_op (stable_const True) trivial fun w₁ f b w₂ _ hI _ hx => ?_
    simp only [publisherExec] at hx
    split_ifs at hx with hused
    rcases answer_of hx with ⟨rfl, rfl⟩ | ⟨-, rfl, hr⟩
    · exact ⟨hI, StatusGrows.refl _, nofun⟩
    · refine ⟨hI.save hused, ⟨fun _ h => List.mem_append_left _ h, fun _ h => h⟩, fun event hev => ?_⟩
      rcases hr with rfl | rfl
      · obtain rfl := Except.ok.inj hev
        exact List.mem_append_right _ (List.mem_singleton_self _)
      · cases hev
  unfold publish
  rw [if_pos hpersist]
  refine Yields.bind hsave fun r w' h => ?_
  cases r with
  | error e => exact Yields.pure trivial
  | ok pending => exact Yields.bind (publishes_pending (h pending rfl)) fun _ _ _ => Yields.pure trivial

theorem publishes_runtime {status : RuntimeStatus} :
    Publishes trimLower sid t (PublisherOp.runtime status) w fun _ _ => True := by
  refine publishes_look (stable_const True) trivial fun f w₁ b w₂ hx => ?_
  rcases answer_of hx with ⟨rfl, -⟩ | ⟨-, rfl, -⟩ <;> rfl

theorem publishes_connectionStatus {event : ConnectionEvent} :
    Publishes trimLower sid t (publishConnectionStatus event) w fun _ _ => True := by
  have hnegative : Publishes trimLower sid t (runtimeDisconnected event) w fun _ _ => True := by
    unfold runtimeDisconnected
    split_ifs
    · exact publishes_runtime
    · exact Yields.pure trivial
  have hpositive : ∀ w, Publishes trimLower sid t (runtimeConnected event) w fun _ _ => True := by
    intro w
    unfold runtimeConnected
    split
    · refine Yields.bind publishes_runtime fun r w₂ _ => ?_
      cases r with
      | error e => exact Yields.pure trivial
      | ok u => exact publishes_runtime
    · exact publishes_runtime
    · exact Yields.pure trivial
  refine Yields.bind hnegative fun runtimeErr w₁ _ => ?_
  refine Yields.bind (publishes_publish rfl) fun r w₂ _ => ?_
  cases r with
  | error e => exact Yields.pure trivial
  | ok u =>
    cases runtimeErr with
    | error e => exact Yields.pure trivial
    | ok u => exact hpositive w₂

end Publisher

/-! ### Runs -/

theorem statusContract_respected (trimLower : String → String) (sid : SessionID) :
    (statusContract sid).Respected (statusSystem trimLower sid) where
  start b w ctx p w' hI h := by
    have hthread : w' = w ∧ ∀ t, Publishes trimLower sid t p w fun _ _ => True := by
      cases b with
      | connectionStatus event =>
        obtain ⟨-, hp⟩ := Prod.mk.inj (Option.some.inj h)
        obtain ⟨rfl, rfl⟩ := Prod.mk.inj hp
        exact ⟨rfl, fun t => Yields.bind publishes_connectionStatus fun _ _ _ => Yields.pure trivial⟩
      | event subject =>
        simp only [statusSystem] at h
        split_ifs at h with hpersist
        obtain ⟨-, hp⟩ := Prod.mk.inj (Option.some.inj h)
        obtain ⟨rfl, rfl⟩ := Prod.mk.inj hp
        exact ⟨rfl, fun t => Yields.bind (publishes_publish hpersist) fun _ _ _ => Yields.pure trivial⟩
      | flush =>
        obtain ⟨-, hp⟩ := Prod.mk.inj (Option.some.inj h)
        obtain ⟨rfl, rfl⟩ := Prod.mk.inj hp
        exact ⟨rfl, fun t => publishes_flush⟩
    obtain ⟨rfl, hp⟩ := hthread
    exact ⟨hI, fun _ => StatusGrows.refl _, fun id => (hp ⟨id, ctx⟩).mono fun _ _ _ => trivial⟩
  env e w w' hI h := by
    cases e with
    | crash =>
      obtain rfl := Option.some.inj h
      exact ⟨hI, fun _ _ => StatusGrows.refl _⟩
    | deliver now admission faults =>
      refine ⟨hI.deliver h, fun _ _ => ?_⟩
      have hsame : w'.saved = w.saved ∧ w'.stream = w.stream := by
        change w.deliver trimLower sid now admission faults = some w' at h
        unfold StatusWorld.deliver at h
        split at h
        · cases h
        · obtain rfl := Option.some.inj h
          exact ⟨rfl, rfl⟩
        · split at h
          · obtain rfl := Option.some.inj h
            exact ⟨rfl, rfl⟩
          · obtain rfl := Option.some.inj h
            exact ⟨rfl, rfl⟩
      exact ⟨fun e he => hsame.1 ▸ he, fun e he => hsame.2 ▸ he⟩

theorem statusInv_start (sid : SessionID) (db : TenantDb) : StatusInv sid (StatusWorld.start db) where
  ids e he := by cases he
  streamed e he := by cases he
  rows r hr := by cases hr
  kept e he := by cases he
  newest e he := by cases he
  bound := Nat.le_refl 0
  current e he := by cases he

/-- **Connection status converges.**  In every run of the worker's threads, its crashes and the API's
deliveries in which no status is accepted after the one published last, whenever the outbox is drained
and the stream applied, the stored status is that of the status published last. -/
theorem status_converges (trimLower : String → String) (sid : SessionID) (db : TenantDb)
    (as : List (PoolAction PublisherChoice PublisherCall StatusEnv))
    (h : Meets (statusSystem trimLower sid).step (OpCond InOrder)
      (Pool.ofWorld (StatusWorld.start db)) as) :
    Always (statusSystem trimLower sid).step (fun s => Converged sid s.world)
      (Pool.ofWorld (StatusWorld.start db)) as := by
  have hrun := (statusContract sid).pool_sound (statusContract_respected trimLower sid)
    (Contract.poolInv_ofWorld (statusInv_start sid db)) h
  exact hrun.1.mono fun s hI => StatusInv.converged hI

/-- The connection `c1` with its session `s1`, linked before. -/
def linkedDb : TenantDb where
  connections := [⟨"c1", .connected, some "15550001", none, some 0, none, none, none, none⟩]
  sessions := [⟨"s1", "c1", .connected, none, some 0, none, none⟩]
  kills := []

def drop : ConnectionEvent := ⟨.disconnected, "connection_lost", "", ""⟩

def reconnect : ConnectionEvent := ⟨.connected, "", "15550001", ""⟩

def publisherOk (thread : ℕ) (id : EventID) : PoolAction PublisherChoice PublisherCall StatusEnv :=
  .run thread ⟨.none, "", id, 0, false⟩

def publisherFails (thread : ℕ) : PoolAction PublisherChoice PublisherCall StatusEnv :=
  .run thread ⟨.failed, "nats: timeout", "", 0, false⟩

/-- The worker drops and reconnects.  JetStream refuses the five attempts for the drop and takes the
reconnect; the flusher replays the drop. -/
def replayedDrop : List (PoolAction PublisherChoice PublisherCall StatusEnv) :=
  [.start 1 (.connectionStatus drop), publisherOk 1 "", publisherOk 1 "e1", publisherFails 1,
    publisherFails 1, publisherFails 1, publisherFails 1, publisherFails 1, publisherOk 1 "",
    .start 2 (.connectionStatus reconnect), publisherOk 2 "e2", publisherOk 2 "", publisherOk 2 "",
    .env (.deliver 1 (some .allowed) []),
    .start 3 .flush, publisherOk 3 "", publisherOk 3 "", publisherOk 3 "", publisherOk 3 "",
    .env (.deliver 2 (some .allowed) [])]

theorem replayed_drop_overwrites_reconnect :
    ¬ Always (statusSystem id "s1").step (fun s => Converged "s1" s.world)
      (Pool.ofWorld (StatusWorld.start linkedDb)) replayedDrop := by
  intro h
  obtain ⟨s, hrun, hrows, happlied, hlast, hverdicts, hstored⟩ : ∃ s,
      runActions (statusSystem id "s1").step (Pool.ofWorld (StatusWorld.start linkedDb)) replayedDrop =
        some s ∧ s.world.rows = [] ∧ s.world.applied = s.world.stream.length ∧
      lastStored s.world.saved = some ⟨"e2", .status, some reconnect⟩ ∧
      s.world.verdicts = [("e1", .stored), ("e2", .stored)] ∧
      s.world.db.storedStatus "s1" = some .disconnected := ⟨_, rfl, rfl, rfl, rfl, rfl, rfl⟩
  have hconv := always_iff_reached.mp h replayedDrop [] s (List.append_nil _).symm hrun
  have hall : AllApplied s.world := ⟨by simp [hrows], happlied⟩
  obtain ⟨v, status, hv, hpayload, hsettles⟩ := hconv hall _ hlast
  obtain rfl := Option.some.inj hpayload
  rw [hverdicts] at hv
  have hv' : v = .stored := by simpa using hv
  rw [hv'] at hsettles
  exact absurd (hsettles _ hstored) (by decide)

/-- A drop that is published, delivered and applied. -/
theorem status_converges_drop :
    Always (statusSystem id "s1").step (fun s => Converged "s1" s.world)
      (Pool.ofWorld (StatusWorld.start linkedDb))
      [.start 1 (.connectionStatus drop), publisherOk 1 "", publisherOk 1 "e1", publisherOk 1 "",
        publisherOk 1 "", .env (.deliver 1 none [])] := by
  refine status_converges _ _ _ _ fun s₁ h₁ => ⟨trivial, fun s₂ h₂ => ⟨?_, fun s₃ h₃ => ⟨?_,
    fun s₄ h₄ => ⟨?_, fun s₅ h₅ => ⟨?_, fun s₆ h₆ => ⟨trivial, trivial⟩⟩⟩⟩⟩⟩
  all_goals
    intro ctx op k hth event msgID hop hran hstores hnew newest hlast
    obtain rfl := Option.some.inj h₁
  · cases hth
    cases hop
  · obtain rfl := Option.some.inj h₂
    cases hth
    cases hop
  · -- nothing has been accepted before
    obtain rfl := Option.some.inj h₂
    obtain rfl := Option.some.inj h₃
    exact List.not_mem_nil
  · obtain rfl := Option.some.inj h₂
    obtain rfl := Option.some.inj h₃
    obtain rfl := Option.some.inj h₄
    cases hth
    cases hop

end TeamInbox.Worker
