import Mathlib.Algebra.GroupWithZero.Nat
import TeamInbox.Channels.Threads

/-!
# TeamInbox.Channels.SecondThread — another thread of a customer

The rows of a thread name the customer as well, and the indexes on the contact admit one active case and one state row
for a customer.  A message on another thread of the customer is stored as long as they are free, or taken by the thread
itself.
-/

namespace TeamInbox.Channels

open TeamInbox.Lib
open TeamInbox.Lib.Indexed (changed changed_pos changed_neg)
open TeamInbox.Cases (Uuid Case CaseKind CaseStatus Assignment StateRow ProjectionSync)

/-! ### What is claimed -/

def SpineDb.unread (db : SpineDb) (conversationID : Uuid) : ℕ :=
  ((db.states.rows.find? (ThreadState.isOf conversationID)).map (·.unreadCount)).getD 0

/-- The thread has an active case and a state row with one more unread message; the rows of other threads are as they
were. -/
structure ThreadAdvanced (db db' : SpineDb) (conversationID : Uuid) : Prop where
  active : ∃ c ∈ db'.cases.rows, c.conversationID = some conversationID ∧ c.status.active = true
  state : ∃ r ∈ db'.states.rows, r.conversationID = some conversationID ∧ r.unreadCount = db.unread conversationID + 1
  states : db'.states.rows.filter (·.conversationID ≠ some conversationID) =
    db.states.rows.filter (·.conversationID ≠ some conversationID)
  assignments : db'.assignments.rows.filter (·.conversationID ≠ some conversationID) =
    db.assignments.rows.filter (·.conversationID ≠ some conversationID)
  cases : db'.cases.rows.filter (·.conversationID ≠ some conversationID) =
    db.cases.rows.filter (·.conversationID ≠ some conversationID)

def SpineDb.linked (db : SpineDb) (e : MessageUpsert) : Option Uuid := (db.thread e).bind (·.legacyContactID)

/-- The contact the message will be stored under. -/
def SpineDb.customer (db : SpineDb) (e : MessageUpsert) (sender : EndpointReference) : Option Uuid :=
  (db.linked e).or
    (if customerEndpointKinds.contains sender.endpointKind then (db.endpoint e sender).bind (·.contactID) else none)

def SpineDb.inThread (db : SpineDb) (e : MessageUpsert) (conversationID : Option Uuid) : Prop :=
  ∃ v, db.thread e = some v ∧ conversationID = some v.id

/-- The message is new, and no other thread holds what an index has for the customer. -/
structure Unhindered (db : SpineDb) (e : MessageUpsert) (sender : EndpointReference) : Prop where
  new : db.stored e = none
  states : ∀ d ∈ db.customer e sender, ∀ r ∈ db.states.rows, r.contactID = some d → db.inThread e r.conversationID
  /-- An active case of the customer does no harm if the thread has its own, with a contact where one would be set. -/
  cases : ∀ d ∈ db.customer e sender, ∀ k ∈ db.cases.rows, activeContact k = some d →
    ∃ own ∈ db.cases.rows, own.status.active = true ∧ db.inThread e own.conversationID ∧
      ((db.linked e).isSome ∨ own.contactID.isSome)
  assignments : ∀ d ∈ db.customer e sender, db.linked e = none →
    ∀ own ∈ db.assignments.rows, own.unassignedAt = none → db.inThread e own.conversationID → own.contactID = none →
      ∀ a ∈ db.assignments.rows, currentContact a ≠ some d

/-! ### The state row -/

variable {db db' : SpineDb} {conversationID : Uuid} {contactID : Option Uuid}

/-- The state row of another thread does not name the contact. -/
def StateFree (conversationID : Uuid) (contactID : Option Uuid) (db : SpineDb) : Prop :=
  ∀ d ∈ contactID, ∀ r ∈ db.states.rows, r.contactID = some d → r.conversationID = some conversationID

theorem isOf_iff {r : ThreadState} : r.isOf conversationID = true ↔ r.conversationID = some conversationID :=
  decide_eq_true_iff

theorem any_state : db.states.rows.any (ThreadState.isOf conversationID) = true ↔
    ∃ r ∈ db.states.rows, r.conversationID = some conversationID := by
  simp only [List.any_eq_true, isOf_iff]

theorem state_unique {r r' : ThreadState} (hr : r ∈ db.states.rows) (hr' : r' ∈ db.states.rows)
    (h : r.conversationID = some conversationID) (h' : r'.conversationID = some conversationID) : r = r' :=
  (db.states.unique _ (List.mem_cons_of_mem _ List.mem_cons_self)).eq hr hr' h h'

theorem unread_of_mem {r : ThreadState} (hr : r ∈ db.states.rows) (h : r.conversationID = some conversationID) :
    db.unread conversationID = r.unreadCount := by
  unfold SpineDb.unread
  cases hfind : db.states.rows.find? (ThreadState.isOf conversationID) with
  | none => exact absurd (isOf_iff.mpr h) (List.find?_eq_none.mp hfind r hr)
  | some r' =>
    rw [state_unique hr (List.mem_of_find?_eq_some hfind) h (isOf_iff.mp (List.find?_some hfind))]
    rfl

theorem unread_of_none (h : ¬ ∃ r ∈ db.states.rows, r.conversationID = some conversationID) :
    db.unread conversationID = 0 := by
  unfold SpineDb.unread
  rw [List.find?_eq_none.mpr fun r hr hof => h ⟨r, hr, isOf_iff.mp hof⟩]
  rfl

theorem conversationID_changed {p : ThreadState → Bool} {f : ThreadState → ThreadState}
    (hf : ∀ r, (f r).conversationID = r.conversationID) (r : ThreadState) :
    (changed p f r).conversationID = r.conversationID := by
  by_cases hp : p r = true
  · rw [changed_pos hp, hf]
  · rw [changed_neg hp]

theorem apart_projected {sync : ProjectionSync} (hfree : StateFree conversationID contactID db) {a b : ThreadState}
    (ha : a ∈ db.states.rows) (hb : b ∈ db.states.rows) (hall : ∀ key ∈ stateIndexes, Apart key a b) :
    Apart (fun r => r.contactID) (changed (ThreadState.isOf conversationID) (ThreadState.project contactID sync) a)
      (changed (ThreadState.isOf conversationID) (ThreadState.project contactID sync) b) := by
  refine apart_of_ne fun d hda hdb => ?_
  by_cases hofa : a.isOf conversationID = true
  · rw [changed_pos hofa] at hda
    by_cases hofb : b.isOf conversationID = true
    · have hapart := hall _ (List.mem_cons_of_mem _ List.mem_cons_self)
      exact hapart.not_both (isOf_iff.mp hofa) (isOf_iff.mp hofb)
    · rw [changed_neg hofb] at hdb
      exact hofb (isOf_iff.mpr (hfree d (Option.mem_def.mpr hda) b hb hdb))
  · rw [changed_neg hofa] at hda
    by_cases hofb : b.isOf conversationID = true
    · rw [changed_pos hofb] at hdb
      exact hofa (isOf_iff.mpr (hfree d (Option.mem_def.mpr hdb) a ha hda))
    · rw [changed_neg hofb] at hdb
      exact (hall _ List.mem_cons_self).not_both hda hdb

theorem sync_isSome {sync : ProjectionSync} :
    (syncConversationProjection conversationID contactID sync db).isSome ↔ StateFree conversationID contactID db := by
  unfold syncConversationProjection
  rw [Option.isSome_map]
  split_ifs with hany
  · obtain ⟨own, hown, hconv⟩ := any_state.mp hany
    constructor
    · intro hsome d hd r hr hcontact
      by_contra hother
      obtain ⟨states, hstates⟩ := Option.isSome_iff_exists.mp hsome
      have hne : own ≠ r := fun heq => hother (heq ▸ hconv)
      have hapart := Indexed.update_apart hstates List.mem_cons_self hown hr hne
      rw [changed_pos (isOf_iff.mpr hconv), changed_neg (fun hof => hother (isOf_iff.mp hof))] at hapart
      exact hapart.not_both (Option.mem_def.mp hd) hcontact
    · intro hfree
      refine Indexed.update_isSome fun key hkey a ha b hb hall => ?_
      rcases List.mem_cons.mp hkey with rfl | hkey
      · exact apart_projected hfree ha hb hall
      · obtain rfl := List.mem_singleton.mp hkey
        refine Indexed.apart_changed (fun r => .inl ?_) (hall _ (List.mem_cons_of_mem _ List.mem_cons_self))
        exact conversationID_changed (f := ThreadState.project contactID sync) (fun _ => rfl) r
  · constructor
    · intro hsome d hd r hr hcontact
      have hkeys := Indexed.insert_isSome.mp hsome _ List.mem_cons_self d (Option.mem_def.mp hd) r hr
      exact absurd hcontact hkeys
    · intro hfree
      refine Indexed.insert_isSome.mpr fun key hkey d hd r hr hrd => ?_
      rcases List.mem_cons.mp hkey with rfl | hkey
      · exact hany (any_state.mpr ⟨r, hr, hfree d (Option.mem_def.mpr hd) r hr hrd⟩)
      · obtain rfl := List.mem_singleton.mp hkey
        obtain rfl := Option.some.inj hd
        exact hany (any_state.mpr ⟨r, hr, hrd⟩)

/-- The thread's row is there, with the unread messages it had; other rows are as they were. -/
structure StateKept (old new : Indexed stateIndexes) (conversationID : Uuid) (unread : ℕ) : Prop where
  row : ∃ r ∈ new.rows, r.conversationID = some conversationID ∧ r.unreadCount = unread
  others : new.rows.filter (·.conversationID ≠ some conversationID) =
    old.rows.filter (·.conversationID ≠ some conversationID)

theorem stateKept_changed {p : ThreadState → Bool} {f : ThreadState → ThreadState} {states : Indexed stateIndexes}
    {unread : ℕ} (hp : ∀ r, p r = true → r.conversationID = some conversationID)
    (hf : ∀ r, (f r).conversationID = r.conversationID) (hstates : states.rows = db.states.rows.map (changed p f))
    {own : ThreadState} (hown : own ∈ db.states.rows) (hconv : own.conversationID = some conversationID)
    (hunread : (changed p f own).unreadCount = unread) : StateKept db.states states conversationID unread where
  row := by
    rw [hstates]
    exact ⟨_, List.mem_map_of_mem hown, (conversationID_changed hf own).trans hconv, hunread⟩
  others := by
    rw [hstates]
    refine Indexed.filter_changed fun r _ hr => ?_
    rw [hf r, hp r hr]
    simp

theorem sync_spec {sync : ProjectionSync} (h : syncConversationProjection conversationID contactID sync db = some db') :
    ∃ states, db' = { db with states := states } ∧ StateKept db.states states conversationID (db.unread conversationID) := by
  unfold syncConversationProjection at h
  obtain ⟨states, hstates, rfl⟩ := Option.map_eq_some_iff.mp h
  refine ⟨states, rfl, ?_⟩
  split_ifs at hstates with hany
  · obtain ⟨own, hown, hconv⟩ := any_state.mp hany
    refine stateKept_changed (f := ThreadState.project contactID sync) (fun r hr => isOf_iff.mp hr) (fun _ => rfl)
      (Indexed.rows_update hstates) hown hconv ?_
    rw [changed_pos (isOf_iff.mpr hconv), unread_of_mem hown hconv]
    rfl
  · have hrows := Indexed.rows_insert hstates
    refine ⟨⟨_, hrows ▸ List.mem_cons_self, rfl, ?_⟩, ?_⟩
    · exact (unread_of_none fun hex => hany (any_state.mpr hex)).symm
    · rw [hrows, List.filter_cons_of_neg (by simp [ProjectionSync.insert])]

/-! ### The active case -/

/-- The customer has no active case, or the thread has one of its own. -/
def CaseFree (conversationID : Uuid) (contactID : Option Uuid) (db : SpineDb) : Prop :=
  ∀ d ∈ contactID, ∀ k ∈ db.cases.rows, activeContact k = some d →
    ∃ own ∈ db.cases.rows, activeConversation own = some conversationID

theorem activeConversation_iff {c : Case} :
    activeConversation c = some conversationID ↔ c.conversationID = some conversationID ∧ c.status.active = true := by
  unfold activeConversation
  split_ifs with h
  · exact ⟨fun hc => ⟨hc, h⟩, fun hc => hc.1⟩
  · exact ⟨fun hc => (nomatch hc), fun hc => absurd hc.2 h⟩

variable {o : Occasion} {messageID : Uuid}

def HasActive (conversationID : Uuid) (db : SpineDb) : Prop :=
  ∃ own ∈ db.cases.rows, activeConversation own = some conversationID

theorem find_active (h : HasActive conversationID db) : ∃ active ∈ db.cases.rows,
    db.cases.rows.find? (fun c => decide (c.conversationID = some conversationID) && c.status.active) = some active ∧
      activeConversation active = some conversationID := by
  obtain ⟨own, hown, hkey⟩ := h
  cases hfind : db.cases.rows.find? fun c => decide (c.conversationID = some conversationID) && c.status.active with
  | none =>
    obtain ⟨hconv, hactive⟩ := activeConversation_iff.mp hkey
    exact absurd (by rw [hconv, hactive]; simp) (List.find?_eq_none.mp hfind own hown)
  | some active =>
    have hactive := List.find?_some hfind
    rw [Bool.and_eq_true, decide_eq_true_eq] at hactive
    exact ⟨active, List.mem_of_find?_eq_some hfind, rfl, activeConversation_iff.mpr hactive⟩

def KeepsThreads (db db' : SpineDb) : Prop := ∀ e v, db.thread e = some v → ∃ v', db'.thread e = some v' ∧ v'.id = v.id

theorem keepsThreads_same (h : db'.conversations = db.conversations) : KeepsThreads db db' := by
  intro e v hv
  refine ⟨v, ?_, rfl⟩
  unfold SpineDb.thread at hv ⊢
  rw [h]
  exact hv

theorem keepsThreads_changed {p : SpineConversation → Bool} {f : SpineConversation → SpineConversation}
    (hf : ∀ v, (f v).id = v.id ∧ (f v).channelAccountID = v.channelAccountID ∧ (f v).clientThreadKey = v.clientThreadKey)
    (h : db'.conversations.rows = db.conversations.rows.map (changed p f)) : KeepsThreads db db' := by
  intro e v hv
  refine ⟨changed p f v, ?_, ?_⟩
  · unfold SpineDb.thread at hv ⊢
    rw [h, Indexed.find?_changed, hv]
    · rfl
    · intro w _
      rw [(hf w).2.1, (hf w).2.2]
  · by_cases hp : p v = true
    · rw [changed_pos hp, (hf v).1]
    · rw [changed_neg hp]

theorem KeepsThreads.trans {db₁ : SpineDb} (h : KeepsThreads db db₁) (h' : KeepsThreads db₁ db') : KeepsThreads db db' := by
  intro e v hv
  obtain ⟨v₁, hv₁, hid₁⟩ := h e v hv
  obtain ⟨v', hv', hid⟩ := h' e v₁ hv₁
  exact ⟨v', hv', hid.trans hid₁⟩

/-- What becomes of the workflow rows: the thread's may change, its state row is there. -/
structure WorkflowKept (db db' : SpineDb) (conversationID : Uuid) (unread : ℕ) : Prop where
  active : HasActive conversationID db'
  state : StateKept db.states db'.states conversationID unread
  assignments : db'.assignments.rows.filter (·.conversationID ≠ some conversationID) =
    db.assignments.rows.filter (·.conversationID ≠ some conversationID)
  cases : db'.cases.rows.filter (·.conversationID ≠ some conversationID) =
    db.cases.rows.filter (·.conversationID ≠ some conversationID)
  threads : KeepsThreads db db'

theorem continueCase_isSome (h : HasActive conversationID db) :
    (continueCase conversationID contactID messageID db).isSome ↔ StateFree conversationID contactID db := by
  obtain ⟨active, -, hfind, -⟩ := find_active h
  unfold continueCase
  rw [hfind]
  dsimp only
  split_ifs
  · rw [Option.isSome_map, sync_isSome]
    rfl
  · rw [Option.isSome_map, sync_isSome]

theorem case_unique {c d : Case} (hc : c ∈ db.cases.rows) (hd : d ∈ db.cases.rows) (h : c.id = d.id) : c = d :=
  (db.cases.unique _ List.mem_cons_self).eq hc hd (congrArg some h) rfl

theorem continueCase_spec (h : HasActive conversationID db)
    (hrun : continueCase conversationID contactID messageID db = some db') :
    WorkflowKept db db' conversationID (db.unread conversationID) := by
  obtain ⟨active, hmem, hfind, hkey⟩ := find_active h
  unfold continueCase at hrun
  rw [hfind] at hrun
  dsimp only at hrun
  split_ifs at hrun with hpending
  · obtain ⟨db₁, hsync, rfl⟩ := Option.map_eq_some_iff.mp hrun
    obtain ⟨states, rfl, hstate⟩ := sync_spec hsync
    obtain ⟨hconv, -⟩ := activeConversation_iff.mp hkey
    refine ⟨⟨_, List.mem_map_of_mem hmem, ?_⟩, hstate, rfl, ?_, keepsThreads_same rfl⟩
    · rw [changed_pos (by simp [pendingCase, hpending])]
      exact activeConversation_iff.mpr ⟨hconv, rfl⟩
    · refine Indexed.filter_changed fun c hc hp => ?_
      obtain rfl := case_unique hc hmem (of_decide_eq_true (Bool.and_eq_true_iff.mp hp).1)
      have hopened : (openedCase c).conversationID = some conversationID := hconv
      simp [hconv, hopened]
  · obtain ⟨db₁, hsync, rfl⟩ := Option.map_eq_some_iff.mp hrun
    obtain ⟨states, rfl, hstate⟩ := sync_spec hsync
    exact ⟨⟨active, hmem, hkey⟩, hstate, rfl, rfl, keepsThreads_same rfl⟩

theorem assignments_reopened (conversationID : Uuid) (reopened : Bool) (now : ℕ) (db : SpineDb) :
    (if reopened then unassignConversation now conversationID db else db).assignments.rows.filter
      (·.conversationID ≠ some conversationID) = db.assignments.rows.filter (·.conversationID ≠ some conversationID) := by
  split_ifs
  · refine Indexed.filter_changed fun a _ ha => ?_
    have hconv : a.conversationID = some conversationID := of_decide_eq_true (Bool.and_eq_true_iff.mp ha).1
    have hnew : (unassigned now a).conversationID = some conversationID := hconv
    simp [hconv, hnew]
  · rfl

theorem conflicts_inboundCase {kind : CaseKind} {prior : Option Case} :
    Indexed.conflicts activeConversation db.cases (inboundCase o conversationID contactID kind messageID prior db) = true ↔
      HasActive conversationID db := by
  unfold Indexed.conflicts HasActive
  simp [inboundCase, activeConversation, CaseStatus.active]

theorem insert_inboundCase (o : Occasion) (messageID : Uuid) (kind : CaseKind) (prior : Option Case)
    (h : ¬ HasActive conversationID db) :
    (db.cases.insert (inboundCase o conversationID contactID kind messageID prior db)).isSome ↔
      CaseFree conversationID contactID db := by
  rw [Indexed.insert_isSome]
  constructor
  · intro hkeys d hd k hk hcontact
    have hrow : activeContact (inboundCase o conversationID contactID kind messageID prior db) = some d :=
      (if_pos rfl).trans (Option.mem_def.mp hd)
    exact absurd hcontact (hkeys _ (List.mem_cons_of_mem _ List.mem_cons_self) d hrow k hk)
  · intro hfree key hkey d hd k hk hkd
    rcases List.mem_cons.mp hkey with rfl | hkey
    · have hfresh := o.uuids.fresh (db.cases.rows.map (·.id))
      obtain rfl := Option.some.inj hd
      have hid : k.id = o.uuids.draw (db.cases.rows.map (·.id)) := Option.some.inj hkd
      rw [← hid] at hfresh
      exact hfresh (List.mem_map_of_mem hk)
    · rcases List.mem_cons.mp hkey with rfl | hkey
      · exact h (hfree d ((if_pos rfl).symm.trans hd) k hk hkd)
      · obtain rfl := List.mem_singleton.mp hkey
        have hconv : d = conversationID := (Option.some.inj ((if_pos rfl).symm.trans hd)).symm
        exact h ⟨k, hk, hconv ▸ hkd⟩

theorem startCase_isSome {reopened : Bool} {row : Case} :
    (startCase o conversationID contactID messageID reopened row db).isSome ↔ StateFree conversationID contactID db := by
  unfold startCase
  rw [Option.isSome_map, sync_isSome]
  cases reopened <;> rfl

theorem startCase_spec {reopened : Bool} {row : Case} (hactive : HasActive conversationID db)
    (h : startCase o conversationID contactID messageID reopened row db = some db') :
    WorkflowKept db db' conversationID (db.unread conversationID) := by
  unfold startCase at h
  obtain ⟨db₁, hsync, rfl⟩ := Option.map_eq_some_iff.mp h
  obtain ⟨states, rfl, hstate⟩ := sync_spec hsync
  have hassignments := assignments_reopened conversationID reopened o.now db
  revert hstate hassignments
  cases reopened with
  | true | false => exact fun hstate hassignments => ⟨hactive, hstate, hassignments, rfl, keepsThreads_same rfl⟩

theorem open_isSome {isGroup : Bool} :
    (openOrReopenCaseForInboundConversation o conversationID contactID isGroup messageID db).isSome ↔
      StateFree conversationID contactID db ∧ CaseFree conversationID contactID db := by
  unfold openOrReopenCaseForInboundConversation
  dsimp only
  rw [Indexed.insertUnless]
  by_cases hactive : HasActive conversationID db
  · have hfree : CaseFree conversationID contactID db := fun _ _ _ _ _ => hactive
    rw [if_pos (conflicts_inboundCase.mpr hactive), Option.bind_some]
    rw [if_neg Bool.false_ne_true, continueCase_isSome hactive]
    exact ⟨fun h => ⟨h, hfree⟩, fun h => h.1⟩
  · rw [if_neg fun h => hactive (conflicts_inboundCase.mp h)]
    rw [← insert_inboundCase o messageID (caseKind isGroup) (priorCase conversationID db) hactive]
    cases hinsert : db.cases.insert (inboundCase o conversationID contactID (caseKind isGroup) messageID
        (priorCase conversationID db) db) with
    | none => exact ⟨fun h => (nomatch h), fun h => (nomatch h.2)⟩
    | some cases =>
      rw [Option.map_some, Option.bind_some, if_pos rfl, startCase_isSome]
      exact ⟨fun h => ⟨h, rfl⟩, fun h => h.1⟩

theorem open_spec {isGroup : Bool}
    (h : openOrReopenCaseForInboundConversation o conversationID contactID isGroup messageID db = some db') :
    WorkflowKept db db' conversationID (db.unread conversationID) := by
  unfold openOrReopenCaseForInboundConversation at h
  dsimp only at h
  rw [Indexed.insertUnless] at h
  by_cases hactive : HasActive conversationID db
  · rw [if_pos (conflicts_inboundCase.mpr hactive), Option.bind_some, if_neg Bool.false_ne_true] at h
    exact continueCase_spec hactive h
  · rw [if_neg fun h => hactive (conflicts_inboundCase.mp h)] at h
    obtain ⟨⟨cases, inserted⟩, hinsert, h⟩ := Option.bind_eq_some_iff.mp h
    obtain ⟨t, ht, heq⟩ := Option.map_eq_some_iff.mp hinsert
    obtain ⟨rfl, rfl⟩ := Prod.mk.inj heq
    rw [if_pos rfl] at h
    have hrows := Indexed.rows_insert ht
    have hnew : HasActive conversationID { db with cases := t } :=
      ⟨_, hrows ▸ List.mem_cons_self, activeConversation_iff.mpr ⟨rfl, rfl⟩⟩
    have hkept := startCase_spec hnew h
    refine ⟨hkept.active, hkept.state, hkept.assignments, hkept.cases.trans ?_, hkept.threads⟩
    show t.rows.filter _ = _
    rw [hrows, List.filter_cons_of_neg (by simp [inboundCase])]

/-! ### A new message -/

variable {e : MessageUpsert}

theorem count_spec (o : Occasion) (e : MessageUpsert) (contactID : Option Uuid) {unread : ℕ}
    (h : ∃ r ∈ db.states.rows, r.conversationID = some conversationID ∧ r.unreadCount = unread) :
    ∃ states, countUnread o e conversationID contactID db = some { db with states := states } ∧
      StateKept db.states states conversationID (unread + 1) := by
  obtain ⟨own, hown, hconv, rfl⟩ := h
  unfold countUnread
  dsimp only
  rw [if_pos (any_state.mpr ⟨own, hown, hconv⟩)]
  refine ⟨_, rfl, stateKept_changed
    (f := ThreadState.count e (Messages.givenId (some (o.slice (e.textContent.getD ""))))) (fun r hr => isOf_iff.mp hr) (fun _ => rfl) rfl hown hconv ?_⟩
  rw [changed_pos (isOf_iff.mpr hconv)]
  rfl

theorem record_isSome : (recordInbound o e conversationID contactID messageID db).isSome ↔
    StateFree conversationID contactID db ∧ CaseFree conversationID contactID db := by
  unfold recordInbound
  constructor
  · intro h
    obtain ⟨db', hrun⟩ := Option.isSome_iff_exists.mp h
    obtain ⟨db₁, hopen, -⟩ := Option.bind_eq_some_iff.mp hrun
    exact open_isSome.mp (Option.isSome_iff_exists.mpr ⟨db₁, hopen⟩)
  · intro h
    have hsome : (openOrReopenCaseForInboundConversation o conversationID contactID (isGroupThread conversationID db)
        messageID db).isSome := open_isSome.mpr h
    obtain ⟨db₁, hopen⟩ := Option.isSome_iff_exists.mp hsome
    obtain ⟨states, hcount, -⟩ := count_spec o e contactID (open_spec hopen).state.row
    rw [hopen, Option.bind_some, hcount]
    rfl

theorem record_spec (h : recordInbound o e conversationID contactID messageID db = some db') :
    WorkflowKept db db' conversationID (db.unread conversationID + 1) := by
  unfold recordInbound at h
  obtain ⟨db₁, hopen, hcount⟩ := Option.bind_eq_some_iff.mp h
  have hkept := open_spec hopen
  obtain ⟨states, hcount', hstate⟩ := count_spec o e contactID hkept.state.row
  rw [hcount'] at hcount
  obtain rfl := Option.some.inj hcount
  exact ⟨hkept.active, ⟨hstate.row, hstate.others.trans hkept.state.others⟩, hkept.assignments, hkept.cases,
    hkept.threads⟩

structure SameWorkflow (db db' : SpineDb) : Prop where
  states : db'.states = db.states
  assignments : db'.assignments = db.assignments
  cases : db'.cases = db.cases
  threads : KeepsThreads db db'

theorem nameSender_same (e : MessageUpsert) (conversationID : Uuid) (senderEndpointID : Option Uuid) (db : SpineDb) :
    SameWorkflow db (nameSender e conversationID senderEndpointID db) := by
  unfold nameSender
  split
  · unfold ensureParticipant
    split_ifs <;> exact ⟨rfl, rfl, rfl, keepsThreads_same rfl⟩
  · exact ⟨rfl, rfl, rfl, keepsThreads_same rfl⟩

theorem StateFree.congr (h : db'.states = db.states) :
    StateFree conversationID contactID db' ↔ StateFree conversationID contactID db := by
  unfold StateFree
  rw [h]

theorem CaseFree.congr (h : db'.cases = db.cases) :
    CaseFree conversationID contactID db' ↔ CaseFree conversationID contactID db := by
  unfold CaseFree
  rw [h]

theorem WorkflowKept.of_same {db₁ : SpineDb} {unread : ℕ} (hsame : SameWorkflow db db₁)
    (h : WorkflowKept db₁ db' conversationID unread) : WorkflowKept db db' conversationID unread where
  active := h.active
  state := hsame.states ▸ h.state
  assignments := hsame.assignments ▸ h.assignments
  cases := hsame.cases ▸ h.cases
  threads := hsame.threads.trans h.threads

section Store

variable {senderEndpointID : Option Uuid}

def named (o : Occasion) (e : MessageUpsert) (conversationID : Uuid) (senderEndpointID contactID : Option Uuid)
    (db : SpineDb) : SpineDb :=
  nameSender e conversationID senderEndpointID (insertMessage o e conversationID contactID db).2

theorem named_same : SameWorkflow db (named o e conversationID senderEndpointID contactID db) := by
  have hsame := nameSender_same e conversationID senderEndpointID (insertMessage o e conversationID contactID db).2
  exact ⟨hsame.states, hsame.assignments, hsame.cases, hsame.threads⟩

theorem store_new (hnew : db.stored e = none) (hinbound : e.inbound = true) :
    storeMessage o e conversationID senderEndpointID contactID db =
      (recordInbound o e conversationID contactID (insertMessage o e conversationID contactID db).1
        (named o e conversationID senderEndpointID contactID db)).map (touchConversation e conversationID) := by
  unfold storeMessage
  rw [hnew]
  dsimp only
  rw [if_pos hinbound]
  rfl

theorem store_isSome (hnew : db.stored e = none) (hinbound : e.inbound = true) :
    (storeMessage o e conversationID senderEndpointID contactID db).isSome ↔
      StateFree conversationID contactID db ∧ CaseFree conversationID contactID db := by
  have hsame : SameWorkflow db (named o e conversationID senderEndpointID contactID db) := named_same
  rw [store_new hnew hinbound, Option.isSome_map, record_isSome, StateFree.congr hsame.states,
    CaseFree.congr hsame.cases]

theorem store_spec (hnew : db.stored e = none) (hinbound : e.inbound = true)
    (h : storeMessage o e conversationID senderEndpointID contactID db = some db') :
    WorkflowKept db db' conversationID (db.unread conversationID + 1) := by
  have hsame : SameWorkflow db (named o e conversationID senderEndpointID contactID db) := named_same
  rw [store_new hnew hinbound] at h
  obtain ⟨db₁, hrecord, rfl⟩ := Option.map_eq_some_iff.mp h
  have hunread : (named o e conversationID senderEndpointID contactID db).unread conversationID =
      db.unread conversationID := by
    unfold SpineDb.unread
    rw [hsame.states]
  have hkept := hunread ▸ (record_spec hrecord).of_same hsame
  exact ⟨hkept.active, hkept.state, hkept.assignments, hkept.cases,
    hkept.threads.trans (keepsThreads_changed (f := SpineConversation.touch e.occurredAt) (fun _ => ⟨rfl, rfl, rfl⟩) rfl)⟩

theorem store_stored {m : SpineMessage} (hstored : db.stored e = some m)
    (h : storeMessage o e conversationID senderEndpointID contactID db = some db') :
    db'.states = db.states ∧ KeepsThreads db db' := by
  unfold storeMessage at h
  rw [hstored] at h
  dsimp only at h
  split_ifs at h
  · obtain rfl := Option.some.inj h
    exact ⟨rfl, keepsThreads_same rfl⟩
  · obtain rfl := Option.some.inj h
    have hsame := nameSender_same e conversationID senderEndpointID (rewriteMessage e conversationID m db)
    exact ⟨hsame.states, hsame.threads.trans
      (keepsThreads_changed (f := SpineConversation.touch e.occurredAt) (fun _ => ⟨rfl, rfl, rfl⟩) rfl)⟩

end Store

/-! ### The thread -/

variable {sender : EndpointReference}

/-- What `ensureConversation` leaves. -/
structure Ensured (db db' : SpineDb) (e : MessageUpsert) (conversationID : Uuid) : Prop where
  row : ∃ v, db'.conversations.rows.find? (·.id = conversationID) = some v ∧ v.kind = e.conversation.kind ∧
    v.legacyContactID = db.linked e
  thread : ∃ v, db'.thread e = some v ∧ v.id = conversationID
  own : ∀ x ∈ db.conversationIDs, db.inThread e (some x) ↔ x = conversationID
  states : db'.states = db.states
  assignments : db'.assignments = db.assignments
  cases : db'.cases = db.cases
  endpoints : db'.endpoints = db.endpoints
  messages : db'.messages = db.messages

theorem find_conversation {rows : Indexed conversationIndexes} {v : SpineConversation} (h : v ∈ rows.rows) :
    rows.rows.find? (·.id = v.id) = some v := by
  cases hfind : rows.rows.find? (·.id = v.id) with
  | none => exact absurd (decide_eq_true rfl) (List.find?_eq_none.mp hfind v h)
  | some w =>
    have hid : w.id = v.id := by simpa using List.find?_some hfind
    rw [(rows.unique _ List.mem_cons_self).eq (List.mem_of_find?_eq_some hfind) h (congrArg some hid) rfl]

theorem newConversation_isSome (o : Occasion) (e : MessageUpsert) (db : SpineDb) :
    (db.conversations.insert (newConversation o e db)).isSome := by
  refine Indexed.insert_isSome.mpr fun key hkey x hx v hv hvx => ?_
  rcases List.mem_cons.mp hkey with rfl | hkey
  · obtain rfl := Option.some.inj hx
    have hid : v.id = o.uuids.draw db.conversationIDs := Option.some.inj hvx
    refine o.uuids.fresh db.conversationIDs ?_
    rw [← hid]
    simp only [SpineDb.conversationIDs, List.mem_append]
    exact .inl (.inl (.inl (List.mem_map_of_mem hv)))
  · obtain rfl := List.mem_singleton.mp hkey
    exact nomatch hx

theorem ensureConversation_spec (o : Occasion) (e : MessageUpsert) (db : SpineDb) : ∃ conversationID db', ensureConversation o e db = some (conversationID, db') ∧
    Ensured db db' e conversationID := by
  unfold ensureConversation
  cases hthread : db.thread e with
  | some existing =>
    have hmem : existing ∈ db.conversations.rows := List.mem_of_find?_eq_some hthread
    have hchanged : changed (fun v => decide (v.id = existing.id)) (SpineConversation.refer e.conversation) existing =
        existing.refer e.conversation := changed_pos (decide_eq_true rfl)
    refine ⟨_, _, rfl, ⟨existing.refer e.conversation, ?_, rfl, ?_⟩, ⟨existing.refer e.conversation, ?_, rfl⟩, ?_, rfl, rfl,
      rfl, rfl, rfl⟩
    · show (db.conversations.rows.map (changed _ (SpineConversation.refer e.conversation))).find? _ = _
      rw [Indexed.find?_changed (f := SpineConversation.refer e.conversation) fun _ _ => rfl, find_conversation hmem, Option.map_some, hchanged]
    · unfold SpineDb.linked
      rw [hthread]
      rfl
    · show (db.conversations.rows.map (changed _ (SpineConversation.refer e.conversation))).find? _ = _
      rw [Indexed.find?_changed (f := SpineConversation.refer e.conversation) fun _ _ => rfl]
      exact (congrArg (Option.map _) hthread).trans (congrArg some hchanged)
    · intro x _
      constructor
      · rintro ⟨v, hv, hx⟩
        obtain rfl := Option.some.inj (hthread.symm.trans hv)
        exact Option.some.inj hx
      · rintro rfl
        exact ⟨existing, hthread, rfl⟩
  | none =>
    have hfresh := o.uuids.fresh db.conversationIDs
    obtain ⟨conversations, hconversations⟩ := Option.isSome_iff_exists.mp (newConversation_isSome o e db)
    have hrows := Indexed.rows_insert hconversations
    dsimp only
    rw [hconversations]
    refine ⟨_, _, rfl, ⟨newConversation o e db, ?_, rfl, ?_⟩, ⟨newConversation o e db, ?_, rfl⟩, ?_, rfl, rfl, rfl, rfl, rfl⟩
    · show conversations.rows.find? _ = _
      rw [hrows]
      exact List.find?_cons_of_pos (decide_eq_true rfl)
    · unfold SpineDb.linked
      rw [hthread]
      rfl
    · show conversations.rows.find? _ = _
      rw [hrows]
      exact List.find?_cons_of_pos (decide_eq_true ⟨rfl, rfl⟩)
    · intro x hx
      constructor
      · rintro ⟨v, hv, -⟩
        exact nomatch hthread.symm.trans hv
      · rintro rfl
        exact absurd hx hfresh

theorem find_endpoint {rows : Indexed endpointIndexes} {f : SpineEndpoint} (h : f ∈ rows.rows) :
    rows.rows.find? (·.id = f.id) = some f := by
  cases hfind : rows.rows.find? (·.id = f.id) with
  | none => exact absurd (decide_eq_true rfl) (List.find?_eq_none.mp hfind f h)
  | some g =>
    have hid : g.id = f.id := by simpa using List.find?_some hfind
    rw [(rows.unique _ List.mem_cons_self).eq (List.mem_of_find?_eq_some hfind) h (congrArg some hid) rfl]

theorem ensureSender_spec {f : SpineEndpoint} (hsender : e.sender = some sender) (hf : db.endpoint e sender = some f) :
    ∃ db', ensureSender o e db = some (some f.id, db') ∧ SameWorkflow db db' ∧ db'.conversations = db.conversations ∧
      db'.messages = db.messages ∧
      db'.endpoints.rows.find? (·.id = f.id) = some (f.refer sender) := by
  have hmem : f ∈ db.endpoints.rows := List.mem_of_find?_eq_some hf
  unfold ensureSender
  rw [hsender]
  dsimp only
  unfold ensureEndpoint
  rw [hf]
  refine ⟨_, rfl, ⟨rfl, rfl, rfl, keepsThreads_same rfl⟩, rfl, rfl, ?_⟩
  show (db.endpoints.rows.map (changed _ (SpineEndpoint.refer sender))).find? _ = _
  rw [Indexed.find?_changed (f := SpineEndpoint.refer sender) fun _ _ => rfl, find_endpoint hmem]
  exact congrArg some (changed_pos (decide_eq_true rfl))

/-! ### The rows without a contact -/

variable {contact : Uuid}

theorem unclaimed_iff {rowContact rowConversation : Option Uuid} :
    unclaimed conversationID rowContact rowConversation = true ↔
      rowConversation = some conversationID ∧ rowContact = none := by
  unfold unclaimed
  rw [Bool.and_eq_true, decide_eq_true_eq, Option.isNone_iff_eq_none]

/-- The rows of the thread that get the contact are the only ones with it. -/
structure Claimable (conversationID contact : Uuid) (db : SpineDb) : Prop where
  states : ∀ r ∈ db.states.rows, r.conversationID = some conversationID → r.contactID = none →
    ∀ r' ∈ db.states.rows, r'.contactID ≠ some contact
  assignments : ∀ a ∈ db.assignments.rows, currentConversation a = some conversationID → a.contactID = none →
    ∀ a' ∈ db.assignments.rows, currentContact a' ≠ some contact
  cases : ∀ c ∈ db.cases.rows, activeConversation c = some conversationID → c.contactID = none →
    ∀ c' ∈ db.cases.rows, activeContact c' ≠ some contact

theorem Claimable.congr (h : SameWorkflow db db') :
    Claimable conversationID contact db' ↔ Claimable conversationID contact db := by
  constructor
  · intro hclaim
    exact ⟨h.states ▸ hclaim.states, h.assignments ▸ hclaim.assignments, h.cases ▸ hclaim.cases⟩
  · intro hclaim
    exact ⟨h.states.symm ▸ hclaim.states, h.assignments.symm ▸ hclaim.assignments, h.cases.symm ▸ hclaim.cases⟩

theorem claim_states : (db.states.update (unclaimedState conversationID)
      (claimState contact)).isSome ↔
    ∀ r ∈ db.states.rows, r.conversationID = some conversationID → r.contactID = none →
      ∀ r' ∈ db.states.rows, r'.contactID ≠ some contact := by
  have hkey : (fun r : ThreadState => r.contactID) ∈ stateIndexes := List.mem_cons_self
  refine (Indexed.update_key_isSome (k := contact) hkey (fun key hkey => ?_) (fun r hp => (unclaimed_iff.mp hp).2)
    (fun _ _ => .inl rfl) fun a b ha hb _ _ hall => ?_).trans ⟨?_, ?_⟩
  · rcases List.mem_cons.mp hkey with rfl | hkey
    · exact .inl rfl
    · obtain rfl := List.mem_singleton.mp hkey
      exact .inr fun _ _ => .inl rfl
  · exact (hall _ (List.mem_cons_of_mem _ List.mem_cons_self)).not_both (unclaimed_iff.mp ha).1 (unclaimed_iff.mp hb).1
  · exact fun h r hr hconv hnone => h r hr (unclaimed_iff.mpr ⟨hconv, hnone⟩) rfl
  · exact fun h r hr hp _ => h r hr (unclaimed_iff.mp hp).1 (unclaimed_iff.mp hp).2

theorem currentConversation_iff {a : Assignment} : currentConversation a = some conversationID ↔
    a.conversationID = some conversationID ∧ a.unassignedAt = none := by
  unfold currentConversation
  cases a.unassignedAt <;> simp

theorem claim_assignments : (db.assignments.update (unclaimedAssignment conversationID)
      (claimAssignment contact)).isSome ↔
    ∀ a ∈ db.assignments.rows, currentConversation a = some conversationID → a.contactID = none →
      ∀ a' ∈ db.assignments.rows, currentContact a' ≠ some contact := by
  have hkey : currentContact ∈ assignmentIndexes := List.mem_cons_self
  have hclaimed : ∀ a, currentContact (claimAssignment contact a) = some contact ↔ a.unassignedAt = none := by
    intro a
    unfold currentContact claimAssignment
    cases a.unassignedAt <;> simp
  refine (Indexed.update_key_isSome (k := contact) hkey (fun key hkey => ?_) (fun a hp => ?_) (fun a _ => ?_)
    fun a b ha hb hka hkb hall => ?_).trans ⟨?_, ?_⟩
  · rcases List.mem_cons.mp hkey with rfl | hkey
    · exact .inl rfl
    · obtain rfl := List.mem_singleton.mp hkey
      exact .inr fun _ _ => .inl rfl
  · unfold currentContact
    rw [(unclaimed_iff.mp hp).2]
    split_ifs <;> rfl
  · unfold currentContact claimAssignment
    dsimp only
    split_ifs
    · exact .inl rfl
    · exact .inr rfl
  · have hconv := hall _ (List.mem_cons_of_mem _ List.mem_cons_self)
    exact hconv.not_both (currentConversation_iff.mpr ⟨(unclaimed_iff.mp ha).1, (hclaimed a).mp hka⟩)
      (currentConversation_iff.mpr ⟨(unclaimed_iff.mp hb).1, (hclaimed b).mp hkb⟩)
  · intro h a ha hconv hnone
    obtain ⟨hconv, hcurrent⟩ := currentConversation_iff.mp hconv
    exact h a ha (unclaimed_iff.mpr ⟨hconv, hnone⟩) ((hclaimed a).mpr hcurrent)
  · intro h a ha hp hka
    exact h a ha (currentConversation_iff.mpr ⟨(unclaimed_iff.mp hp).1, (hclaimed a).mp hka⟩) (unclaimed_iff.mp hp).2

theorem claim_cases : (db.cases.update (unclaimedCase conversationID)
      (claimCase contact)).isSome ↔
    ∀ c ∈ db.cases.rows, activeConversation c = some conversationID → c.contactID = none →
      ∀ c' ∈ db.cases.rows, activeContact c' ≠ some contact := by
  have hkey : activeContact ∈ caseIndexes := List.mem_cons_of_mem _ List.mem_cons_self
  have hclaimed : ∀ c, activeContact (claimCase contact c) = some contact ↔ c.status.active = true := by
    intro c
    show (if c.status.active = true then some contact else none) = some contact ↔ _
    split_ifs with h
    · exact ⟨fun _ => h, fun _ => rfl⟩
    · exact ⟨fun hc => (nomatch hc), fun hc => absurd hc h⟩
  refine (Indexed.update_key_isSome (k := contact) hkey (fun key hkey => ?_) (fun c hp => ?_) (fun c _ => ?_)
    fun a b ha hb hka hkb hall => ?_).trans ⟨?_, ?_⟩
  · rcases List.mem_cons.mp hkey with rfl | hkey
    · exact .inr fun _ _ => .inl rfl
    · rcases List.mem_cons.mp hkey with rfl | hkey
      · exact .inl rfl
      · obtain rfl := List.mem_singleton.mp hkey
        exact .inr fun _ _ => .inl rfl
  · unfold activeContact
    rw [(unclaimed_iff.mp hp).2]
    split_ifs <;> rfl
  · show (if c.status.active = true then some contact else none) = some contact ∨
      (if c.status.active = true then some contact else none) = none
    split_ifs
    · exact .inl rfl
    · exact .inr rfl
  · have hconv := hall activeConversation (List.mem_cons_of_mem _ (List.mem_cons_of_mem _ List.mem_cons_self))
    exact hconv.not_both (activeConversation_iff.mpr ⟨(unclaimed_iff.mp ha).1, (hclaimed a).mp hka⟩)
      (activeConversation_iff.mpr ⟨(unclaimed_iff.mp hb).1, (hclaimed b).mp hkb⟩)
  · intro h c hc hconv hnone
    obtain ⟨hconv, hactive⟩ := activeConversation_iff.mp hconv
    exact h c hc (unclaimed_iff.mpr ⟨hconv, hnone⟩) ((hclaimed c).mpr hactive)
  · intro h c hc hp hkc
    exact h c hc (activeConversation_iff.mpr ⟨(unclaimed_iff.mp hp).1, (hclaimed c).mp hkc⟩) (unclaimed_iff.mp hp).2

theorem backfill_isSome : (backfillContact conversationID contact db).isSome ↔ Claimable conversationID contact db := by
  constructor
  · intro h
    obtain ⟨db', hrun⟩ := Option.isSome_iff_exists.mp h
    obtain ⟨states, hstates, hrun⟩ := Option.bind_eq_some_iff.mp hrun
    obtain ⟨assignments, hassignments, hrun⟩ := Option.bind_eq_some_iff.mp hrun
    obtain ⟨cases, hcases, -⟩ := Option.map_eq_some_iff.mp hrun
    exact ⟨claim_states.mp (Option.isSome_iff_exists.mpr ⟨_, hstates⟩),
      claim_assignments.mp (Option.isSome_iff_exists.mpr ⟨_, hassignments⟩),
      claim_cases.mp (Option.isSome_iff_exists.mpr ⟨_, hcases⟩)⟩
  · intro h
    obtain ⟨states, hstates⟩ := Option.isSome_iff_exists.mp (claim_states.mpr h.states)
    obtain ⟨assignments, hassignments⟩ := Option.isSome_iff_exists.mp (claim_assignments.mpr h.assignments)
    obtain ⟨cases, hcases⟩ := Option.isSome_iff_exists.mp (claim_cases.mpr h.cases)
    unfold backfillContact
    rw [hstates, Option.bind_some, hassignments, Option.bind_some, hcases]
    rfl

structure Backfilled (db db' : SpineDb) (conversationID contact : Uuid) : Prop where
  states : db'.states.rows =
    db.states.rows.map (changed (unclaimedState conversationID) (claimState contact))
  assignments : db'.assignments.rows = db.assignments.rows.map
    (changed (unclaimedAssignment conversationID) (claimAssignment contact))
  cases : db'.cases.rows =
    db.cases.rows.map (changed (unclaimedCase conversationID) (claimCase contact))
  threads : KeepsThreads db db'
  messages : db'.messages = db.messages

theorem backfill_spec (h : backfillContact conversationID contact db = some db') :
    Backfilled db db' conversationID contact := by
  obtain ⟨states, hstates, h⟩ := Option.bind_eq_some_iff.mp h
  obtain ⟨assignments, hassignments, h⟩ := Option.bind_eq_some_iff.mp h
  obtain ⟨cases, hcases, rfl⟩ := Option.map_eq_some_iff.mp h
  exact ⟨Indexed.rows_update hstates, Indexed.rows_update hassignments, Indexed.rows_update hcases, keepsThreads_same rfl, rfl⟩

namespace Backfilled

variable (h : Backfilled db db' conversationID contact)

include h

theorem stateFree : StateFree conversationID (some contact) db' ↔ StateFree conversationID (some contact) db := by
  unfold StateFree
  rw [h.states]
  constructor
  · intro hfree d hd r hr hcontact
    have hsame : changed (unclaimedState conversationID) (claimState contact) r = r :=
      changed_neg fun hp => nomatch (unclaimed_iff.mp hp).2.symm.trans hcontact
    exact hfree d hd r (hsame ▸ List.mem_map_of_mem hr) hcontact
  · intro hfree d hd r' hr' hcontact
    obtain ⟨r, hr, rfl⟩ := List.mem_map.mp hr'
    by_cases hp : unclaimedState conversationID r = true
    · rw [changed_pos hp]
      exact (unclaimed_iff.mp hp).1
    · rw [changed_neg hp] at hcontact ⊢
      exact hfree d hd r hr hcontact

theorem hasActive : HasActive conversationID db' ↔ HasActive conversationID db := by
  unfold HasActive
  rw [h.cases]
  have hsame : ∀ c, activeConversation (changed (unclaimedCase conversationID)
      (claimCase contact) c) = activeConversation c := by
    intro c
    by_cases hp : unclaimedCase conversationID c = true
    · rw [changed_pos hp]
      rfl
    · rw [changed_neg hp]
  constructor
  · rintro ⟨c', hc', hactive⟩
    obtain ⟨c, hc, rfl⟩ := List.mem_map.mp hc'
    exact ⟨c, hc, (hsame c).symm.trans hactive⟩
  · rintro ⟨c, hc, hactive⟩
    exact ⟨_, List.mem_map_of_mem hc, (hsame c).trans hactive⟩

theorem caseFree : CaseFree conversationID (some contact) db' ↔ CaseFree conversationID (some contact) db := by
  constructor
  · intro hfree d hd k hk hcontact
    have hsame : changed (unclaimedCase conversationID) (claimCase contact) k = k := by
      refine changed_neg fun hp => ?_
      unfold activeContact at hcontact
      rw [(unclaimed_iff.mp hp).2] at hcontact
      split_ifs at hcontact
    refine h.hasActive.mp (hfree d hd k ?_ hcontact)
    rw [h.cases]
    exact hsame ▸ List.mem_map_of_mem hk
  · intro hfree d hd k' hk' hcontact
    rw [h.cases] at hk'
    obtain ⟨k, hk, rfl⟩ := List.mem_map.mp hk'
    refine h.hasActive.mpr ?_
    by_cases hp : unclaimedCase conversationID k = true
    · rw [changed_pos hp] at hcontact
      refine ⟨k, hk, activeConversation_iff.mpr ⟨(unclaimed_iff.mp hp).1, ?_⟩⟩
      have hcontact : (if k.status.active = true then some contact else none) = some d := hcontact
      split_ifs at hcontact with hactive
      exact hactive
    · rw [changed_neg hp] at hcontact
      exact hfree d hd k hk hcontact

theorem unread : db'.unread conversationID = db.unread conversationID := by
  unfold SpineDb.unread
  rw [h.states, Indexed.find?_changed (f := claimState contact) fun _ _ => rfl, Option.map_map]
  congr 1
  refine congrArg (fun g => Option.map g _) (funext fun r => ?_)
  show (changed _ _ r).unreadCount = r.unreadCount
  by_cases hp : unclaimedState conversationID r = true
  · rw [changed_pos hp]
    rfl
  · rw [changed_neg hp]

theorem kept {db₁ : SpineDb} {n : ℕ} (hkept : WorkflowKept db' db₁ conversationID n) : WorkflowKept db db₁ conversationID n where
  active := hkept.active
  state := by
    refine ⟨hkept.state.row, hkept.state.others.trans ?_⟩
    rw [h.states]
    refine Indexed.filter_changed fun r _ hp => ?_
    have hold := (unclaimed_iff.mp hp).1
    have hnew : (claimState contact r).conversationID = some conversationID := hold
    simp [hold, hnew]
  assignments := by
    refine hkept.assignments.trans ?_
    rw [h.assignments]
    refine Indexed.filter_changed fun a _ hp => ?_
    have hold := (unclaimed_iff.mp hp).1
    have hnew : (claimAssignment contact a).conversationID = some conversationID := hold
    simp [hold, hnew]
  cases := by
    refine hkept.cases.trans ?_
    rw [h.cases]
    refine Indexed.filter_changed fun c _ hp => ?_
    have hold := (unclaimed_iff.mp hp).1
    have hnew : (claimCase contact c).conversationID = some conversationID := hold
    simp [hold, hnew]
  threads := h.threads.trans hkept.threads

end Backfilled

/-! ### The contact -/

theorem linkThread_spec (conversationID contact : Uuid) (db : SpineDb) : ∃ db', linkThread conversationID contact db = some db' ∧
    SameWorkflow db db' ∧ db'.messages = db.messages := by
  unfold linkThread
  split_ifs with hany
  · exact ⟨db, rfl, ⟨rfl, rfl, rfl, keepsThreads_same rfl⟩, rfl⟩
  · have hnone : ∀ v ∈ db.conversations.rows, v.legacyContactID ≠ some contact := fun v hv hlink =>
      hany (List.any_eq_true.mpr ⟨v, hv, decide_eq_true hlink⟩)
    have hkey : (fun v : SpineConversation => v.legacyContactID) ∈ conversationIndexes :=
      List.mem_cons_of_mem _ List.mem_cons_self
    have hof : ∀ v, unlinked conversationID v = true → v.id = conversationID ∧ v.legacyContactID = none :=
      fun v hv => by simpa [unlinked] using hv
    have hsome : (db.conversations.update (unlinked conversationID) (SpineConversation.link contact)).isSome := by
      refine (Indexed.update_key_isSome (k := contact) hkey (fun key hkey => ?_) (fun v hv => (hof v hv).2)
        (fun _ _ => .inl rfl) fun a b ha hb _ _ hall => ?_).mpr fun _ _ _ _ v hv => hnone v hv
      · rcases List.mem_cons.mp hkey with rfl | hkey
        · exact .inr fun _ _ => .inl rfl
        · obtain rfl := List.mem_singleton.mp hkey
          exact .inl rfl
      · exact (hall _ List.mem_cons_self).not_both (congrArg some (hof a ha).1) (congrArg some (hof b hb).1)
    obtain ⟨conversations, hconversations⟩ := Option.isSome_iff_exists.mp hsome
    rw [hconversations]
    have hthreads : KeepsThreads db { db with conversations := conversations } :=
      keepsThreads_changed (f := SpineConversation.link contact) (fun _ => ⟨rfl, rfl, rfl⟩)
        (Indexed.rows_update hconversations)
    exact ⟨_, rfl, ⟨rfl, rfl, rfl, hthreads⟩, rfl⟩

section Attach

variable {v : SpineConversation} {f : SpineEndpoint}

theorem attach_linked {d : Uuid} {candidate : Option Uuid}
    (hv : db.conversations.rows.find? (·.id = conversationID) = some v) (hlinked : v.legacyContactID = some d) :
    attachWorkflowContact o conversationID candidate db = some (some d, db) := by
  unfold attachWorkflowContact
  rw [hv, Option.bind_some]
  dsimp only
  rw [hlinked]

theorem workflowCandidates_sender (hf : db.endpoints.rows.find? (·.id = f.id) = some f) :
    workflowCandidates conversationID (some f.id) db = [f] := by
  unfold workflowCandidates
  dsimp only
  rw [hf]
  rfl

theorem attach_other (hv : db.conversations.rows.find? (·.id = conversationID) = some v) (hnone : v.legacyContactID = none)
    (hf : db.endpoints.rows.find? (·.id = f.id) = some f) (hother : f.isCustomer = false) :
    attachWorkflowContact o conversationID (some f.id) db = some (none, db) := by
  unfold attachWorkflowContact
  rw [hv, Option.bind_some]
  dsimp only
  rw [hnone]
  dsimp only
  split_ifs
  · rfl
  · rw [workflowCandidates_sender hf, List.filter_cons_of_neg (by rw [hother]; exact Bool.false_ne_true)]
    rfl

theorem attach_customer (hv : db.conversations.rows.find? (·.id = conversationID) = some v)
    (hnone : v.legacyContactID = none) (hdirect : v.kind = .direct) (hf : db.endpoints.rows.find? (·.id = f.id) = some f)
    (hcustomer : f.isCustomer = true) (hcontact : f.contactID = some contact) :
    ∃ db₁, SameWorkflow db db₁ ∧ db₁.messages = db.messages ∧ attachWorkflowContact o conversationID (some f.id) db =
      (backfillContact conversationID contact db₁).map fun db => (some contact, db) := by
  obtain ⟨db₁, hlink, hsame, hmessages⟩ := linkThread_spec conversationID contact db
  refine ⟨db₁, hsame, hmessages, ?_⟩
  unfold attachWorkflowContact
  rw [hv, Option.bind_some]
  dsimp only
  rw [hnone]
  dsimp only
  rw [if_neg fun h => h hdirect]
  rw [workflowCandidates_sender hf, List.filter_cons_of_pos hcustomer, List.filter_nil]
  dsimp only
  unfold claimEndpoint
  rw [hcontact]
  dsimp only
  rw [hlink, Option.bind_some]

end Attach

/-! ### The transaction -/

structure SameRows (db db' : SpineDb) : Prop where
  states : db'.states = db.states
  assignments : db'.assignments = db.assignments
  cases : db'.cases = db.cases
  messages : db'.messages = db.messages

theorem SameRows.unread (h : SameRows db db') : db'.unread conversationID = db.unread conversationID := by
  unfold SpineDb.unread
  rw [h.states]

theorem SameRows.advanced {db₁ : SpineDb} (hsame : SameRows db db₁)
    (h : WorkflowKept db₁ db' conversationID (db₁.unread conversationID + 1)) : ThreadAdvanced db db' conversationID where
  active := by
    obtain ⟨c, hc, hactive⟩ := h.active
    exact ⟨c, hc, activeConversation_iff.mp hactive⟩
  state := by
    obtain ⟨r, hr, hconv, hcount⟩ := h.state.row
    exact ⟨r, hr, hconv, hcount.trans (congrArg (· + 1) hsame.unread)⟩
  states := hsame.states ▸ h.state.others
  assignments := hsame.assignments ▸ h.assignments
  cases := hsame.cases ▸ h.cases

structure Finds (db db₁ : SpineDb) (e : MessageUpsert) (conversationID : Uuid) : Prop where
  messages : db₁.messages = db.messages
  thread : ∃ v, db₁.thread e = some v ∧ v.id = conversationID
  unread : db₁.unread conversationID = db.unread conversationID
  advanced : ∀ db', WorkflowKept db₁ db' conversationID (db₁.unread conversationID + 1) →
    ThreadAdvanced db db' conversationID

def Advances (db : SpineDb) (e : MessageUpsert) (outcome : Option SpineDb) : Prop :=
  ∃ db' v, outcome = some db' ∧ db'.thread e = some v ∧ ThreadAdvanced db db' v.id

theorem store_advances {db₁ : SpineDb} {senderEndpointID : Option Uuid} (h : Finds db db₁ e conversationID)
    (hinbound : e.inbound = true) :
    Advances db e (storeMessage o e conversationID senderEndpointID contactID db₁) ↔
      db.stored e = none ∧ StateFree conversationID contactID db₁ ∧ CaseFree conversationID contactID db₁ := by
  have hstored : db₁.stored e = db.stored e := by
    unfold SpineDb.stored
    rw [h.messages]
  obtain ⟨v₁, hthread, rfl⟩ := h.thread
  constructor
  · rintro ⟨db', v, hstore, hv, hadvanced⟩
    cases hnew : db₁.stored e with
    | none =>
      exact ⟨hstored.symm.trans hnew, (store_isSome hnew hinbound).mp (Option.isSome_iff_exists.mpr ⟨db', hstore⟩)⟩
    | some m =>
      obtain ⟨hstates, hthreads⟩ := store_stored hnew hstore
      obtain ⟨v', hv', hid⟩ := hthreads e v₁ hthread
      obtain rfl := Option.some.inj (hv'.symm.trans hv)
      obtain ⟨r, hr, hconv, hcount⟩ := hadvanced.state
      rw [hstates] at hr
      have hunread := unread_of_mem hr hconv
      rw [hid] at hunread hcount
      have heq := h.unread
      omega
  · rintro ⟨hnew, hfree⟩
    have hnew : db₁.stored e = none := hstored.trans hnew
    have hsome : (storeMessage o e v₁.id senderEndpointID contactID db₁).isSome := (store_isSome hnew hinbound).mpr hfree
    obtain ⟨db', hstore⟩ := Option.isSome_iff_exists.mp hsome
    have hkept := store_spec hnew hinbound hstore
    obtain ⟨v', hv', hid⟩ := hkept.threads e v₁ hthread
    exact ⟨db', v', hstore, hv', hid ▸ h.advanced db' hkept⟩

structure Located (db db₁ : SpineDb) (e : MessageUpsert) (sender : EndpointReference) (f : SpineEndpoint)
    (conversationID : Uuid) : Prop extends SameRows db db₁ where
  row : ∃ v, db₁.conversations.rows.find? (·.id = conversationID) = some v ∧ v.kind = e.conversation.kind ∧
    v.legacyContactID = db.linked e
  thread : ∃ v, db₁.thread e = some v ∧ v.id = conversationID
  own : ∀ x ∈ db.conversationIDs, db.inThread e (some x) ↔ x = conversationID
  endpoint : db₁.endpoints.rows.find? (·.id = f.id) = some (f.refer sender)

theorem upsert_located {f : SpineEndpoint} (o : Occasion) (hinbound : e.inbound = true) (hsender : e.sender = some sender)
    (hf : db.endpoint e sender = some f) : ∃ conversationID db₁, Located db db₁ e sender f conversationID ∧
      applyMessageUpsert o e db = (attachWorkflowContact o conversationID (some f.id) db₁).bind fun r =>
        storeMessage o e conversationID (some f.id) r.1 r.2 := by
  obtain ⟨conversationID, db₀, hensure, hensured⟩ := ensureConversation_spec o e db
  have hf₀ : db₀.endpoint e sender = some f := by
    unfold SpineDb.endpoint
    rw [hensured.endpoints]
    exact hf
  obtain ⟨db₁, hsend, hsame, hconversations, hmessages, hendpoint⟩ := ensureSender_spec (o := o) hsender hf₀
  obtain ⟨v₀, hv₀, hid₀⟩ := hensured.thread
  obtain ⟨v₁, hv₁, hid₁⟩ := hsame.threads e v₀ hv₀
  refine ⟨conversationID, db₁, ⟨⟨hsame.states.trans hensured.states, hsame.assignments.trans hensured.assignments,
    hsame.cases.trans hensured.cases, hmessages.trans hensured.messages⟩, ?_, ⟨v₁, hv₁, hid₁.trans hid₀⟩, hensured.own,
    hendpoint⟩, ?_⟩
  · rw [hconversations]
    exact hensured.row
  · unfold applyMessageUpsert
    rw [hensure, Option.bind_some]
    dsimp only
    rw [hsend, Option.bind_some]
    dsimp only
    rw [if_pos hinbound]

namespace Located

variable {f : SpineEndpoint} {db₁ : SpineDb} (h : Located db db₁ e sender f conversationID)

include h

theorem inThread_iff {x : Option Uuid} (hx : ∀ y, x = some y → y ∈ db.conversationIDs) :
    db.inThread e x ↔ x = some conversationID := by
  cases x with
  | none => exact ⟨fun ⟨_, _, hnone⟩ => (nomatch hnone), fun hnone => (nomatch hnone)⟩
  | some y => exact (h.own y (hx y rfl)).trans ⟨fun heq => congrArg some heq, fun heq => Option.some.inj heq⟩

theorem inThread_state {r : ThreadState} (hr : r ∈ db.states.rows) :
    db.inThread e r.conversationID ↔ r.conversationID = some conversationID := by
  refine h.inThread_iff fun y hy => ?_
  simp only [SpineDb.conversationIDs, List.mem_append, List.mem_filterMap]
  exact .inl (.inl (.inr ⟨r, hr, hy⟩))

theorem inThread_assignment {a : Assignment} (ha : a ∈ db.assignments.rows) :
    db.inThread e a.conversationID ↔ a.conversationID = some conversationID := by
  refine h.inThread_iff fun y hy => ?_
  simp only [SpineDb.conversationIDs, List.mem_append, List.mem_filterMap]
  exact .inl (.inr ⟨a, ha, hy⟩)

theorem inThread_case {c : Case} (hc : c ∈ db.cases.rows) :
    db.inThread e c.conversationID ↔ c.conversationID = some conversationID := by
  refine h.inThread_iff fun y hy => ?_
  simp only [SpineDb.conversationIDs, List.mem_append, List.mem_filterMap]
  exact .inr ⟨c, hc, hy⟩

theorem finds : Finds db db₁ e conversationID where
  messages := h.messages
  thread := h.thread
  unread := h.toSameRows.unread
  advanced := fun _ hkept => h.toSameRows.advanced hkept

theorem stateFree_iff : StateFree conversationID contactID db₁ ↔
    ∀ d ∈ contactID, ∀ r ∈ db.states.rows, r.contactID = some d → db.inThread e r.conversationID := by
  rw [StateFree.congr h.states]
  refine forall₂_congr fun d _ => forall₂_congr fun r hr => ?_
  rw [h.inThread_state hr]

theorem unhindered_given (hcustomer : db.customer e sender = contactID)
    (hgiven : (db.linked e).isSome ∨ contactID = none) :
    Unhindered db e sender ↔
      db.stored e = none ∧ StateFree conversationID contactID db₁ ∧ CaseFree conversationID contactID db₁ := by
  rw [h.stateFree_iff, CaseFree.congr h.cases]
  constructor
  · intro hun
    refine ⟨hun.new, hcustomer ▸ hun.states, fun d hd k hk hactive => ?_⟩
    obtain ⟨own, hown, hstatus, hthread, -⟩ := hun.cases d (hcustomer ▸ hd) k hk hactive
    exact ⟨own, hown, activeConversation_iff.mpr ⟨(h.inThread_case hown).mp hthread, hstatus⟩⟩
  · rintro ⟨hnew, hstates, hcases⟩
    refine ⟨hnew, hcustomer.symm ▸ hstates, fun d hd k hk hactive => ?_, fun d hd hnone => ?_⟩
    · rw [hcustomer] at hd
      obtain ⟨own, hown, hkey⟩ := hcases d hd k hk hactive
      obtain ⟨hconv, hstatus⟩ := activeConversation_iff.mp hkey
      refine ⟨own, hown, hstatus, (h.inThread_case hown).mpr hconv, .inl (hgiven.resolve_right fun hc => ?_)⟩
      rw [hc] at hd
      exact nomatch hd
    · rcases hgiven with hlinked | rfl
      · rw [hnone] at hlinked
        exact nomatch hlinked
      · rw [hcustomer] at hd
        exact nomatch hd

theorem unhindered_claimed {contact : Uuid} (hcustomer : db.customer e sender = some contact) (hnone : db.linked e = none) :
    Unhindered db e sender ↔ Claimable conversationID contact db₁ ∧
      db.stored e = none ∧ StateFree conversationID (some contact) db₁ ∧ CaseFree conversationID (some contact) db₁ := by
  rw [h.stateFree_iff, CaseFree.congr h.cases]
  have hunlinked : ¬ (db.linked e).isSome = true := by
    rw [hnone]
    exact Bool.false_ne_true
  have hmem : contact ∈ db.customer e sender := hcustomer
  constructor
  · intro hun
    refine ⟨⟨?_, ?_, ?_⟩, hun.new, hcustomer ▸ hun.states, fun d hd k hk hactive => ?_⟩
    · rw [h.states]
      intro r hr hconv hrnone r' hr' hcontact
      have hconv' := (h.inThread_state hr').mp (hun.states contact hmem r' hr' hcontact)
      obtain rfl := state_unique hr hr' hconv hconv'
      exact nomatch hrnone.symm.trans hcontact
    · rw [h.assignments]
      intro a ha hkey hanone a' ha'
      obtain ⟨hconv, hcurrent⟩ := currentConversation_iff.mp hkey
      exact hun.assignments contact hmem hnone a ha hcurrent ((h.inThread_assignment ha).mpr hconv) hanone a' ha'
    · rw [h.cases]
      intro c hc hkey hcnone c' hc' hactive
      obtain ⟨own, hown, hstatus, hthread, hor⟩ := hun.cases contact hmem c' hc' hactive
      have hown' := activeConversation_iff.mpr ⟨(h.inThread_case hown).mp hthread, hstatus⟩
      have heq : c = own := (db.cases.unique activeConversation
        (List.mem_cons_of_mem _ (List.mem_cons_of_mem _ List.mem_cons_self))).eq hc hown hkey hown'
      have hsome := hor.resolve_left hunlinked
      rw [← heq, hcnone] at hsome
      exact nomatch hsome
    · obtain ⟨own, hown, hstatus, hthread, -⟩ := hun.cases d (hcustomer.symm ▸ hd) k hk hactive
      exact ⟨own, hown, activeConversation_iff.mpr ⟨(h.inThread_case hown).mp hthread, hstatus⟩⟩
  · rintro ⟨hclaim, hnew, hstates, hcases⟩
    refine ⟨hnew, hcustomer.symm ▸ hstates, fun d hd k hk hactive => ?_, fun d hd _ own hown hcurrent hthread hnull a ha => ?_⟩
    · rw [hcustomer] at hd
      obtain rfl := Option.some.inj hd
      obtain ⟨own, hown, hkey⟩ := hcases contact rfl k hk hactive
      obtain ⟨hconv, hstatus⟩ := activeConversation_iff.mp hkey
      refine ⟨own, hown, hstatus, (h.inThread_case hown).mpr hconv, .inr ?_⟩
      cases hown' : own.contactID with
      | some _ => rfl
      | none =>
        have hclaim := hclaim.cases
        rw [h.cases] at hclaim
        exact absurd hactive (hclaim own hown hkey hown' k hk)
    · rw [hcustomer] at hd
      obtain rfl := Option.some.inj hd
      have hclaim := hclaim.assignments
      rw [h.assignments] at hclaim
      exact hclaim own hown (currentConversation_iff.mpr ⟨(h.inThread_assignment hown).mp hthread, hcurrent⟩) hnull a ha

end Located

theorem Finds.of_backfilled {db₁ db₂ db₃ : SpineDb} (h : Finds db db₁ e conversationID) (hsame : SameWorkflow db₁ db₂)
    (hmessages : db₂.messages = db₁.messages) (hfill : Backfilled db₂ db₃ conversationID contact) :
    Finds db db₃ e conversationID := by
  have hunread₂ : db₂.unread conversationID = db₁.unread conversationID := by
    unfold SpineDb.unread
    rw [hsame.states]
  refine ⟨hfill.messages.trans (hmessages.trans h.messages), ?_, ?_, fun db' hkept => ?_⟩
  · obtain ⟨v, hv, hid⟩ := h.thread
    obtain ⟨v₃, hv₃, hid₃⟩ := (hsame.threads.trans hfill.threads) e v hv
    exact ⟨v₃, hv₃, hid₃.trans hid⟩
  · exact hfill.unread.trans (hunread₂.trans h.unread)
  · rw [hfill.unread, hunread₂] at hkept
    exact h.advanced db' ((hfill.kept hkept).of_same hsame)

/-- **Another thread of a customer.**  A direct inbound message of an endpoint that belongs to a customer is stored under
its thread exactly where it is new and the indexes on the contact leave room for the rows of the thread. -/
theorem another_thread_stored (o : Occasion) (e : MessageUpsert) (db : SpineDb) (sender : EndpointReference)
    (f : SpineEndpoint) (contact : Uuid) (hinbound : e.inbound = true) (hdirect : e.conversation.kind = .direct)
    (hsender : e.sender = some sender) (hendpoint : db.endpoint e sender = some f) (hcontact : f.contactID = some contact) :
    Advances db e (applyMessageUpsert o e db) ↔ Unhindered db e sender := by
  obtain ⟨conversationID, db₁, hlocated, hrun⟩ := upsert_located o hinbound hsender hendpoint
  obtain ⟨v, hv, hkind, hlegacy⟩ := hlocated.row
  rw [hrun]
  cases hlinked : db.linked e with
  | some d =>
    have hcustomer : db.customer e sender = some d := by
      unfold SpineDb.customer
      rw [hlinked]
      rfl
    rw [attach_linked hv (hlegacy.trans hlinked), Option.bind_some, store_advances hlocated.finds hinbound,
      hlocated.unhindered_given hcustomer (.inl (hlinked ▸ rfl))]
  | none =>
    cases hkindof : customerEndpointKinds.contains sender.endpointKind with
    | false =>
      have hcustomer : db.customer e sender = none := by
        unfold SpineDb.customer
        rw [hlinked, hkindof]
        rfl
      have hattach := attach_other (o := o) (f := f.refer sender) hv (hlegacy.trans hlinked) hlocated.endpoint hkindof
      rw [show some f.id = some (f.refer sender).id from rfl, hattach, Option.bind_some,
        store_advances hlocated.finds hinbound, hlocated.unhindered_given hcustomer (.inr rfl)]
    | true =>
      have hcustomer : db.customer e sender = some contact := by
        unfold SpineDb.customer
        rw [hlinked, hkindof, hendpoint]
        exact hcontact
      obtain ⟨db₂, hsame, hmessages, hattach⟩ := attach_customer (o := o) (f := f.refer sender) hv (hlegacy.trans hlinked)
        (hkind.trans hdirect) hlocated.endpoint hkindof hcontact
      rw [show some f.id = some (f.refer sender).id from rfl, hattach, hlocated.unhindered_claimed hcustomer hlinked,
        ← StateFree.congr hsame.states, ← CaseFree.congr hsame.cases, ← Claimable.congr hsame, ← backfill_isSome]
      cases hfill : backfillContact conversationID contact db₂ with
      | none => exact ⟨fun ⟨_, _, hnone, _⟩ => (nomatch hnone), fun hsome => (nomatch hsome.1)⟩
      | some db₃ =>
        have hfilled := backfill_spec hfill
        rw [Option.map_some, Option.bind_some,
          store_advances (hlocated.finds.of_backfilled hsame hmessages hfilled) hinbound, hfilled.stateFree, hfilled.caseFree]
        exact ⟨fun hstore => ⟨rfl, hstore⟩, fun hstore => hstore.2⟩

/-! ### Two threads of one sender -/

theorem length_le_sum {used : List Uuid} {id : Uuid} (h : id ∈ used) : id.length ≤ (used.map String.length).sum := by
  induction used with
  | nil => exact absurd h List.not_mem_nil
  | cons first used ih =>
    rw [List.map_cons, List.sum_cons]
    rcases List.mem_cons.mp h with rfl | h
    · exact Nat.le_add_right _ _
    · exact Nat.le_trans (ih h) (Nat.le_add_left _ _)

def longerUuid : UuidSource where
  draw used := String.ofList (List.replicate ((used.map String.length).sum + 1) '0')
  fresh := by
    intro used h
    have hle := length_le_sum h
    rw [String.length_ofList, List.length_replicate] at hle
    omega

def someOccasion : Occasion := ⟨0, ⟨"policy", 30, 480, 60, 960⟩, longerUuid, id⟩

def visitor : EndpointReference := ⟨"4917", "linked-device-account:1", "person", none, none, some "Ada"⟩

def visitorMessage (thread messageID : String) : MessageUpsert :=
  ⟨"account", "whatsapp", "whatsapp_linked_device", 0, ⟨thread, .direct, none⟩, some visitor, true, messageID,
    thread, some "Hello"⟩

/-- The visitor writes on a thread and then on another. -/
theorem second_thread_rejected : ∃ db, applyMessageUpsert someOccasion (visitorMessage "a" "1") .empty = some db ∧
    ((db.endpoint (visitorMessage "b" "2") visitor).bind (·.contactID)).isSome = true ∧
      ¬ Advances db (visitorMessage "b" "2") (applyMessageUpsert someOccasion (visitorMessage "b" "2") db) := by
  have hfirst : ((applyMessageUpsert someOccasion (visitorMessage "a" "1") .empty).bind fun db =>
      (db.endpoint (visitorMessage "b" "2") visitor).bind (·.contactID)).isSome = true := by decide +kernel
  have hsecond : ((applyMessageUpsert someOccasion (visitorMessage "a" "1") .empty).bind fun db =>
      applyMessageUpsert someOccasion (visitorMessage "b" "2") db).isSome = false := by decide +kernel
  cases hdb : applyMessageUpsert someOccasion (visitorMessage "a" "1") .empty with
  | none =>
    rw [hdb] at hfirst
    exact nomatch hfirst
  | some db =>
    rw [hdb] at hfirst hsecond
    refine ⟨db, rfl, hfirst, ?_⟩
    rintro ⟨db', v, hrun, -⟩
    have hsecond : (applyMessageUpsert someOccasion (visitorMessage "b" "2") db).isSome = false := hsecond
    rw [hrun] at hsecond
    exact nomatch hsecond

def visitorEndpoint : SpineEndpoint :=
  ⟨"endpoint", some "customer", "whatsapp", "whatsapp_linked_device", "account", "linked-device-account:1", "4917", "person",
    none, none, some "Ada"⟩

def visitorDb : SpineDb :=
  { SpineDb.empty with endpoints := ⟨[visitorEndpoint], fun _ _ => List.pairwise_singleton _ _⟩ }

theorem another_thread_stored_visitor :
    Advances visitorDb (visitorMessage "a" "1") (applyMessageUpsert someOccasion (visitorMessage "a" "1") visitorDb) :=
  (another_thread_stored someOccasion (visitorMessage "a" "1") visitorDb visitor visitorEndpoint "customer" rfl rfl rfl rfl
    rfl).mpr
    ⟨rfl, fun _ _ _ hr => absurd hr List.not_mem_nil, fun _ _ _ hk => absurd hk List.not_mem_nil,
      fun _ _ _ _ ha => absurd ha List.not_mem_nil⟩

end TeamInbox.Channels
