import TeamInbox.Contacts.ListTotal
import TeamInbox.Contacts.Resolution

/-!
# TeamInbox.Contacts.ListGroups — what a row of the list stands for

A row stands for a customer: the contact and everything merged into it.  `grp` looks one link down, whereas a contact
with others merged into it can be merged itself; `list_row_stands_iff` says that this is all that goes wrong.
-/

namespace TeamInbox.Contacts

open TeamInbox.Lib TeamInbox.Lib.Sql

def everyone : ListOptions := ⟨[], true, none, none, [], false, false, none, false, none, false⟩

def assignedToMe (userId : ℕ) : ListOptions :=
  { everyone with
    assignedToMe := true
    userId := some userId }

namespace InboxDb

variable (like : Text → Text → Bool) (db : InboxDb) (s : ContactDb)

/-! ### What is claimed -/

/-- The contacts are those that have been merged. -/
structure Holds : Prop where
  ids : ∀ i, (∃ c ∈ db.contacts.rows, c.id = i) ↔ (s.contacts.find? i).isSome
  links : ∀ c ∈ db.contacts.rows, c.mergedIntoContactId = s.parent c.id

open Classical in
noncomputable def tree (root : ℕ) : List ContactRow :=
  db.contacts.rows.filter fun c => decide (∃ n, RootAt s.parent n c.id root)

/-- The unread messages of a contact: of its conversation, or of the contact where it has none. -/
def unreadOf (c : ContactRow) : ℤ :=
  ((db.states.rows.filter fun r => match db.conversations.rows.find? (liveConversation c.id) with
    | some v => decide (r.conversationId = some v.id)
    | none => decide (r.contactId = some c.id)).map (·.unreadCount)).sum

def accountsOf (c : ContactRow) : List ℕ :=
  match db.conversations.rows.find? (liveConversation c.id) with
  | some v => [v.channelAccountId]
  | none => c.whatsappConnectionId.toList

structure Stands : Prop where
  roots : ∀ r ∈ db.contactRows like everyone, s.parent r.id = none
  once : ∀ c ∈ db.contacts.rows, s.parent c.id = none → notBroadcast c.jid = some true →
    ((db.contactRows like everyone).map (·.id)).count c.id = 1
  chats : ∀ r ∈ db.contactRows like everyone, r.chatCount = (db.tree s r.id).length
  unread : ∀ r ∈ db.contactRows like everyone, r.unreadCount = ((db.tree s r.id).map db.unreadOf).sum
  accounts : ∀ r ∈ db.contactRows like everyone, ∀ c ∈ db.tree s r.id, ∀ a ∈ db.accountsOf c, a ∈ r.accountIds
  assigned : ∀ userId, ∀ r ∈ db.contactRows like everyone, r.id ∈ (db.contactRows like (assignedToMe userId)).map (·.id) ↔
    ∃ c ∈ db.tree s r.id, ∃ a ∈ db.assignments.rows, a.active = some c.id ∧ a.assignedTo = userId

/-- No listed customer has a contact more than one link down. -/
def Shallow : Prop := ∀ c ∈ db.contacts.rows, ∀ root ∈ db.contacts.rows, notBroadcast root.jid = some true →
  ∀ n, RootAt s.parent n c.id root.id → n ≤ 1

variable {like db s} {c : ContactRow}

/-! ### A row and the group below it -/

theorem unreadOf_eq (db : InboxDb) (c : ContactRow) : db.unreadOf c = (db.threadOf c).unreadCount := by
  unfold unreadOf threadOf ThreadColumns.unreadCount
  cases db.conversations.rows.find? (liveConversation c.id) with
  | none =>
    dsimp only
    rw [filter_unique (db.states.unique _ List.mem_cons_self) (k := c.id) fun r _ hr => of_decide_eq_true hr]
    have hcsc : db.states.rows.find? (stateOfConversation none) = none := List.find?_eq_none.mpr fun _ _ h => nomatch h
    have hcsl : stateOfContact none c.id = fun r => decide (r.contactId = some c.id) := rfl
    rw [hcsc, hcsl]
    cases db.states.rows.find? fun r => decide (r.contactId = some c.id) <;> simp
  | some v =>
    dsimp only
    rw [filter_unique (db.states.unique _ (List.mem_cons_of_mem _ List.mem_cons_self)) (k := v.id)
      fun r _ hr => of_decide_eq_true hr]
    have hcsl : db.states.rows.find? (stateOfContact (some v) c.id) = none := List.find?_eq_none.mpr fun _ _ h => nomatch h
    have hcsc : stateOfConversation (some v) = fun r => decide (r.conversationId = some v.id) := rfl
    rw [hcsl, hcsc]
    cases db.states.rows.find? fun r => decide (r.conversationId = some v.id) <;> simp

theorem mem_accountsOf {a : ℕ} : a ∈ db.accountsOf c ↔ (db.threadOf c).account c = some a := by
  unfold accountsOf ThreadColumns.account threadOf
  cases db.conversations.rows.find? (liveConversation c.id) <;> simp [eq_comm]

theorem listed_spec (db : InboxDb) (c : ContactRow) : (db.listed (db.rowOf c)).chatCount = 1 + (db.mergedInto c.id).length ∧
    (db.listed (db.rowOf c)).unreadCount = ((c :: db.mergedInto c.id).map db.unreadOf).sum ∧
    ∀ mc ∈ c :: db.mergedInto c.id, ∀ a ∈ db.accountsOf mc, a ∈ (db.listed (db.rowOf c)).accountIds := by
  have hunread : db.unreadOf = fun c => (db.threadOf c).unreadCount := funext (unreadOf_eq db)
  unfold listed
  dsimp only [rowOf]
  rw [hunread, grp_eq]
  refine ⟨?_, ?_, fun mc hmc a ha => ?_⟩
  · cases db.mergedInto c.id <;> rfl
  · cases db.mergedInto c.id <;> rfl
  · rw [mem_accountsOf] at ha
    rw [List.mem_append]
    rcases List.mem_cons.mp hmc with rfl | hmc
    · exact .inr (Option.mem_toList.mpr ha)
    · refine .inl ?_
      rw [if_neg (by simpa using List.ne_nil_of_mem hmc)]
      exact List.mem_dedup.mpr (List.mem_filterMap.mpr ⟨mc, hmc, ha⟩)

theorem mem_contactRows {o : ListOptions} {r : ListedContact} : r ∈ db.contactRows like o ↔
    ∃ c ∈ db.contacts.rows, db.buildContactWhereClause like o (db.rowOf c) = some true ∧ db.listed (db.rowOf c) = r := by
  rw [contactRows_eq, List.mem_map]
  simp only [List.mem_filter, beq_iff_eq, and_assoc]

theorem rows_of_where {o o' : ListOptions} {P : ListedContact → Prop} {r : ListedContact}
    (h : ∀ c ∈ db.contacts.rows, db.buildContactWhereClause like o (db.rowOf c) = some true ↔
      db.buildContactWhereClause like o' (db.rowOf c) = some true ∧ P (db.listed (db.rowOf c))) :
    r ∈ db.contactRows like o ↔ r ∈ db.contactRows like o' ∧ P r := by
  rw [mem_contactRows, mem_contactRows]
  constructor
  · rintro ⟨c, hc, hwhere, rfl⟩
    obtain ⟨hwhere, hP⟩ := (h c hc).mp hwhere
    exact ⟨⟨c, hc, hwhere, rfl⟩, hP⟩
  · rintro ⟨⟨c, hc, hwhere, rfl⟩, hP⟩
    exact ⟨c, hc, (h c hc).mpr ⟨hwhere, hP⟩, rfl⟩

theorem everyone_iff : db.buildContactWhereClause like everyone (db.rowOf c) = some true ↔
    c.mergedIntoContactId = none ∧ notBroadcast c.jid = some true := by
  unfold buildContactWhereClause buildAssignmentClause everyone
  simp

/-- The contact, or one merged into it, is assigned to the user. -/
def AssignedTo (db : InboxDb) (userId : ℕ) (c : ContactRow) : Prop :=
  ∃ mc ∈ c :: db.mergedInto c.id, ∃ a ∈ db.assignments.rows, a.active = some mc.id ∧ a.assignedTo = userId

theorem assignedInGroup_iff {userId : ℕ} : db.assignedInGroup (db.rowOf c) userId = some true ↔ AssignedTo db userId c := by
  have hown : eq ((db.rowOf c).ca.map (·.assignedTo)) (some userId) = some true ↔
      ∃ a ∈ db.assignments.rows, a.active = some c.id ∧ a.assignedTo = userId := by
    rw [Sql.eq_true]
    constructor
    · rintro ⟨x, hx, hu⟩
      obtain ⟨a, hca, rfl⟩ := Option.map_eq_some_iff.mp hx
      obtain ⟨ha, hactive⟩ := rowOf_ca.mp hca
      exact ⟨a, ha, hactive, (Option.some.inj hu).symm⟩
    · rintro ⟨a, ha, hactive, rfl⟩
      exact ⟨_, congrArg (Option.map _) (rowOf_ca.mpr ⟨ha, hactive⟩), rfl⟩
  have hgroup : ex (db.mergedAssignments c.id) (fun mca => eq (some mca.assignedTo) (some userId)) = some true ↔
      ∃ mc ∈ db.mergedInto c.id, ∃ a ∈ db.assignments.rows, a.active = some mc.id ∧ a.assignedTo = userId := by
    simp only [ex_true, mem_mergedAssignments, rowOf_ca, Sql.eq_true, Option.some_inj]
    constructor
    · rintro ⟨a, ⟨mc, hmc, ha, hactive⟩, x, rfl, hu⟩
      exact ⟨mc, hmc, a, ha, hactive, hu.symm⟩
    · rintro ⟨mc, hmc, a, ha, hactive, rfl⟩
      exact ⟨a, ⟨mc, hmc, ha, hactive⟩, _, rfl, rfl⟩
  unfold assignedInGroup AssignedTo
  rw [Sql.or_true, hown, rowOf_c, hgroup, List.exists_mem_cons_iff]

/-- The same without the filters on assignments. -/
def anyAssignee (o : ListOptions) : ListOptions :=
  { o with
    assignedToMe := false
    unassigned := false
    userId := none
    restrictToAssigned := false }

theorem where_assigned {o : ListOptions} {userId : ℕ} (ho : (o.restrictToAssigned || o.assignedToMe) = true)
    (huser : o.userId = some userId) : db.buildContactWhereClause like o (db.rowOf c) = some true ↔
      db.buildContactWhereClause like (anyAssignee o) (db.rowOf c) = some true ∧ AssignedTo db userId c := by
  have hclause : db.buildAssignmentClause o (db.rowOf c) = [db.assignedInGroup (db.rowOf c) userId] := by
    unfold buildAssignmentClause
    rw [huser]
    cases hrestrict : o.restrictToAssigned with
    | true => rfl
    | false =>
      rw [hrestrict, Bool.false_or] at ho
      rw [ho]
  have hnone : db.buildAssignmentClause (anyAssignee o) (db.rowOf c) = [] := rfl
  unfold buildContactWhereClause
  dsimp only
  rw [hclause, hnone, List.append_nil, all_true, all_true, List.forall_mem_append, List.forall_mem_singleton,
    assignedInGroup_iff]
  exact Iff.rfl

theorem assignedToMe_iff {userId : ℕ} : db.buildContactWhereClause like (assignedToMe userId) (db.rowOf c) = some true ↔
    (c.mergedIntoContactId = none ∧ notBroadcast c.jid = some true) ∧ AssignedTo db userId c :=
  (where_assigned rfl rfl).trans (and_congr_left fun _ => everyone_iff)

/-- **What a restricted user sees.**  Whatever else is asked for, the list of a user who is restricted to own chats holds
the rows of the unrestricted list that stand for a contact or a merged one assigned to the user, and no others. -/
theorem restricted_rows (like : Text → Text → Bool) (o : ListOptions) (userId : ℕ) (db : InboxDb) (r : ListedContact) :
    r ∈ db.contactRows like { o with restrictToAssigned := true, userId := some userId } ↔
      r ∈ db.contactRows like (anyAssignee o) ∧ ∃ c ∈ db.contacts.rows, c.id = r.id ∧ AssignedTo db userId c := by
  refine rows_of_where (P := fun r => ∃ c ∈ db.contacts.rows, c.id = r.id ∧ AssignedTo db userId c) fun c hc => ?_
  refine (where_assigned rfl rfl).trans (and_congr_right fun _ => ⟨fun h => ⟨c, hc, rfl, h⟩, ?_⟩)
  rintro ⟨x, hx, hid, hassigned⟩
  obtain rfl := (db.contacts.unique _ List.mem_cons_self).eq hx hc (congrArg some hid) rfl
  exact hassigned

/-- **The account filter.**  It keeps the rows that show the account. -/
theorem account_rows (like : Text → Text → Bool) (o : ListOptions) (account : ℕ) (db : InboxDb) (r : ListedContact) :
    r ∈ db.contactRows like { o with channelAccountId := some account } ↔
      r ∈ db.contactRows like { o with channelAccountId := none } ∧ account ∈ r.accountIds := by
  refine rows_of_where (P := fun r => account ∈ r.accountIds) fun c _ => ?_
  have hshown : or (eq ((db.rowOf c).thread.account c) (some account)) ((db.grp c.id).map fun g =>
      g.accountIds.any fun id => id == account) = some true ↔ account ∈ (db.listed (db.rowOf c)).accountIds := by
    unfold listed
    cases hgrp : db.grp c.id <;> simp [rowOf, hgrp, or_comm]
  have hassignment : db.buildAssignmentClause { o with channelAccountId := some account } =
    db.buildAssignmentClause { o with channelAccountId := none } := rfl
  unfold buildContactWhereClause
  rw [hassignment, ← hshown]
  simp only [all_true, List.forall_mem_append, Option.toList_some, Option.toList_none, List.map_cons, List.map_nil,
    List.forall_mem_singleton, rowOf_c]
  tauto

/-- **The unread filter.**  It keeps the rows that show unread messages. -/
theorem unread_rows (like : Text → Text → Bool) (o : ListOptions) (db : InboxDb) (r : ListedContact)
    (h : ∀ s ∈ db.states.rows, 0 ≤ s.unreadCount) : r ∈ db.contactRows like { o with unreadOnly := true } ↔
      r ∈ db.contactRows like { o with unreadOnly := false } ∧ 0 < r.unreadCount := by
  refine rows_of_where (P := fun r => 0 < r.unreadCount) fun c _ => ?_
  have hshown : (0 < (db.rowOf c).thread.unreadCount ∨ 0 < ((db.grp c.id).map (·.unreadCount)).getD 0) ↔
      0 < (db.listed (db.rowOf c)).unreadCount := by
    rw [unread_iff h, (listed_spec db c).2.1, funext (unreadOf_eq db), (sum_pos_iff fun mc _ => unread_nonneg h mc).2,
      List.exists_mem_cons_iff]
    rfl
  have hassignment : db.buildAssignmentClause { o with unreadOnly := true } =
    db.buildAssignmentClause { o with unreadOnly := false } := rfl
  unfold buildContactWhereClause
  rw [hassignment, ← hshown]
  dsimp only [rowOf_c]
  simp only [all_true, List.forall_mem_append, if_true, Bool.false_eq_true, if_false, List.forall_mem_singleton,
    Sql.or_true, Option.some_inj, decide_eq_true_eq]
  tauto

theorem unread_rows_two : ∃ r, r ∈ twoCustomers.contactRows (fun _ _ => false) { noFilter with unreadOnly := true } ∧
    r.id = 1 := by
  refine ⟨⟨1, none, 1, 1, []⟩, (unread_rows _ noFilter twoCustomers _ (by simp [twoCustomers])).mpr ?_, rfl⟩
  exact ⟨by decide, by decide⟩

/-! ### The customer -/

theorem mem_tree {root : ℕ} : c ∈ db.tree s root ↔ c ∈ db.contacts.rows ∧ ∃ n, RootAt s.parent n c.id root := by
  simp only [tree, List.mem_filter, decide_eq_true_eq]

theorem contacts_nodup (db : InboxDb) : db.contacts.rows.Nodup :=
  (db.contacts.unique _ List.mem_cons_self).imp fun hab heq => hab.not_both rfl (congrArg (some ·.id) heq.symm)

theorem group_nodup (hroot : c.mergedIntoContactId = none) : (c :: db.mergedInto c.id).Nodup := by
  refine List.nodup_cons.mpr ⟨fun hmem => ?_, (contacts_nodup db).filter _⟩
  have hself := of_decide_eq_true (List.mem_filter.mp hmem).2
  rw [hroot] at hself
  cases hself

theorem group_subset (h : db.Holds s) (hc : c ∈ db.contacts.rows) (hroot : c.mergedIntoContactId = none) :
    c :: db.mergedInto c.id ⊆ db.tree s c.id := by
  have htop : RootAt s.parent 0 c.id c.id := rootAt_zero.mpr ⟨rfl, (h.links c hc).symm.trans hroot⟩
  intro x hx
  rcases List.mem_cons.mp hx with rfl | hx
  · exact mem_tree.mpr ⟨hc, 0, htop⟩
  · obtain ⟨hmem, hlink⟩ := List.mem_filter.mp hx
    refine mem_tree.mpr ⟨hmem, 1, rootAt_succ.mpr ⟨c.id, ?_, htop⟩⟩
    exact (h.links x hmem).symm.trans (of_decide_eq_true hlink)

/-- The group is the customer where nothing is more than one link down. -/
theorem group_perm_iff (h : db.Holds s) (hc : c ∈ db.contacts.rows) (hroot : c.mergedIntoContactId = none) :
    (c :: db.mergedInto c.id).Perm (db.tree s c.id) ↔ ∀ x ∈ db.contacts.rows, ∀ n, RootAt s.parent n x.id c.id → n ≤ 1 := by
  have hsub := group_subset h hc hroot
  constructor
  · intro hperm x hx n hn
    rcases List.mem_cons.mp (hperm.mem_iff.mpr (mem_tree.mpr ⟨hx, n, hn⟩)) with rfl | hmem
    · rw [(hn.unique (rootAt_zero.mpr ⟨rfl, hn.2⟩)).1]
      exact Nat.zero_le 1
    · have hlink := of_decide_eq_true (List.mem_filter.mp hmem).2
      have hone : RootAt s.parent 1 x.id c.id :=
        rootAt_succ.mpr ⟨c.id, (h.links x hx).symm.trans hlink, rootAt_zero.mpr ⟨rfl, hn.2⟩⟩
      rw [(hn.unique hone).1]
  · intro hshallow
    refine (List.perm_ext_iff_of_nodup (group_nodup hroot) ((contacts_nodup db).filter _)).mpr fun x => ⟨fun hx => hsub hx, ?_⟩
    intro hx
    obtain ⟨hmem, n, hn⟩ := mem_tree.mp hx
    rcases Nat.le_one_iff_eq_zero_or_eq_one.mp (hshallow x hmem n hn) with rfl | rfl
    · have hid := (rootAt_zero.mp hn).1
      rw [(db.contacts.unique _ List.mem_cons_self).eq hmem hc (congrArg some hid) rfl]
      exact List.mem_cons_self
    · obtain ⟨b, hb, hlast⟩ := rootAt_succ.mp hn
      obtain rfl := (rootAt_zero.mp hlast).1
      exact List.mem_cons_of_mem _ (List.mem_filter.mpr ⟨hmem, decide_eq_true ((h.links x hmem).trans hb)⟩)

theorem stands_of_shallow (h : db.Holds s) (hshallow : Shallow db s) : Stands like db s := by
  have hrow : ∀ r ∈ db.contactRows like everyone, ∃ c ∈ db.contacts.rows, c.mergedIntoContactId = none ∧
      notBroadcast c.jid = some true ∧ db.listed (db.rowOf c) = r ∧ (c :: db.mergedInto c.id).Perm (db.tree s c.id) := by
    intro r hr
    obtain ⟨c, hc, hwhere, rfl⟩ := mem_contactRows.mp hr
    obtain ⟨hroot, hjid⟩ := everyone_iff.mp hwhere
    exact ⟨c, hc, hroot, hjid, rfl, (group_perm_iff h hc hroot).mpr fun x hx => hshallow x hx c hc hjid⟩
  constructor
  · intro r hr
    obtain ⟨c, hc, hroot, -, rfl, -⟩ := hrow r hr
    exact (h.links c hc).symm.trans hroot
  · intro c hc hroot hjid
    refine List.count_eq_one_of_mem (ids_nodup like everyone db) (List.mem_map.mpr ⟨db.listed (db.rowOf c), ?_, rfl⟩)
    exact mem_contactRows.mpr ⟨c, hc, everyone_iff.mpr ⟨(h.links c hc).trans hroot, hjid⟩, rfl⟩
  · intro r hr
    obtain ⟨c, -, -, -, rfl, hperm⟩ := hrow r hr
    exact (listed_spec db c).1.trans ((Nat.add_comm _ _).trans hperm.length_eq)
  · intro r hr
    obtain ⟨c, -, -, -, rfl, hperm⟩ := hrow r hr
    exact (listed_spec db c).2.1.trans (hperm.map _).sum_eq
  · intro r hr x hx a ha
    obtain ⟨c, -, -, -, rfl, hperm⟩ := hrow r hr
    exact (listed_spec db c).2.2 x (hperm.mem_iff.mpr hx) a ha
  · intro userId r hr
    obtain ⟨c, hc, hroot, hjid, rfl, hperm⟩ := hrow r hr
    have hmem : (db.listed (db.rowOf c)).id ∈ (db.contactRows like (assignedToMe userId)).map (·.id) ↔
        db.buildContactWhereClause like (assignedToMe userId) (db.rowOf c) = some true := by
      rw [List.mem_map]
      constructor
      · rintro ⟨r, hr, hid⟩
        obtain ⟨c', hc', hwhere, rfl⟩ := mem_contactRows.mp hr
        rw [(db.contacts.unique _ List.mem_cons_self).eq hc' hc (congrArg some hid) rfl] at hwhere
        exact hwhere
      · exact fun hwhere => ⟨_, mem_contactRows.mpr ⟨c, hc, hwhere, rfl⟩, rfl⟩
    rw [hmem, assignedToMe_iff, and_iff_right ⟨hroot, hjid⟩]
    exact exists_congr fun x => and_congr_left fun _ => hperm.mem_iff

theorem shallow_of_chats (h : db.Holds s)
    (hchats : ∀ r ∈ db.contactRows like everyone, r.chatCount = (db.tree s r.id).length) : Shallow db s := by
  intro x hx c hc hjid n hn
  have hroot : c.mergedIntoContactId = none := (h.links c hc).trans hn.2
  have hlength := hchats _ (mem_contactRows.mpr ⟨c, hc, everyone_iff.mpr ⟨hroot, hjid⟩, rfl⟩)
  rw [(listed_spec db c).1, Nat.add_comm] at hlength
  have hperm := (List.subperm_of_subset (group_nodup hroot) (group_subset h hc hroot)).perm_of_length_le hlength.ge
  exact (group_perm_iff h hc hroot).mp hperm x hx n hn

/-- **What a row stands for.**  In every state that merges and their reversals reach, whatever the other tables hold,
the rows of the list stand for the customers if and only if no listed customer has a contact more than one link down. -/
theorem list_row_stands_iff (like : Text → Text → Bool) (s : ContactDb) (as : List (CallAction MergeAction Empty)) :
    Always mergeSystem.step (fun t => ∀ db : InboxDb, db.Holds t.shared → (Stands like db t.shared ↔ Shallow db t.shared))
      (.start s .idle) as :=
  always_iff_reached.mpr fun _ _ _ _ _ _ h => ⟨fun hstands => shallow_of_chats h hstands.chats, stands_of_shallow h⟩

/-- Contact 0 has been merged into 1, and 1 into 2. -/
def chain : InboxDb where
  contacts := ⟨[⟨0, none, none, none, none, none, none, some false, some 1⟩,
    ⟨1, none, none, none, none, none, none, some false, some 2⟩,
    ⟨2, none, none, none, none, none, none, some false, none⟩], by simp [Lib.Unique, Apart]⟩
  conversations := .empty
  states := .empty
  assignments := .empty
  messages := []
  tags := []

theorem customer_below_unseen : ¬ ∀ (like : Text → Text → Bool) (s : ContactDb), Unmerged s → ∀ as,
    Always mergeSystem.step (fun t => ∀ db : InboxDb, db.Holds t.shared → Stands like db t.shared) (.start s .idle) as := by
  intro h
  have hrun : (runActions mergeSystem.step (.start (unmerged 3 .empty) .idle) (mergeOn 0 ++ mergeOn 1)).map
      (fun t => (t.shared.contacts.keys, t.shared.parent 0, t.shared.parent 1, t.shared.parent 2)) =
        some ([1, 0, 2], some 1, some 2, none) := by decide +kernel
  obtain ⟨t, ht, hend⟩ := Option.map_eq_some_iff.mp hrun
  simp only [Prod.mk.injEq] at hend
  obtain ⟨hkeys, h₀, h₁, h₂⟩ := hend
  have hholds : chain.Holds t.shared := by
    refine ⟨fun i => ?_, ?_⟩
    · rw [← Table.mem_keys, hkeys]
      simp [chain, eq_comm]
      omega
    · simp [chain, h₀, h₁, h₂]
  have hstands := always_iff_reached.mp (h (fun _ _ => false) _ (unmerged_unmerged 3 .empty) _) _ [] t
    (List.append_nil _).symm ht chain hholds
  have hdeep : RootAt t.shared.parent 2 0 2 :=
    rootAt_succ.mpr ⟨1, h₀, rootAt_succ.mpr ⟨2, h₁, rootAt_zero.mpr ⟨rfl, h₂⟩⟩⟩
  have hle := shallow_of_chats hholds hstands.chats _ (List.mem_cons_self) _
    (List.mem_cons_of_mem _ (List.mem_cons_of_mem _ List.mem_cons_self)) rfl 2 hdeep
  omega

end InboxDb

end TeamInbox.Contacts
