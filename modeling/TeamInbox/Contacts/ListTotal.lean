import TeamInbox.Contacts.ContactList

/-!
# TeamInbox.Contacts.ListTotal — the list and its total agree

Every join of the two queries is on the key of a unique index, so that both go through the contacts one by one
(`joined_eq`) and their filters are compared on one row (`where_iff`).
-/

namespace TeamInbox.Contacts

open TeamInbox.Lib TeamInbox.Lib.Sql

namespace InboxDb

variable {like : Text → Text → Bool} {o : ListOptions} {db : InboxDb} {c : ContactRow} {i : ℕ}

/-! ### One row for a contact -/

def threadOf (db : InboxDb) (c : ContactRow) : ThreadColumns :=
  let conv := db.conversations.rows.find? (liveConversation c.id)
  ⟨conv, db.states.rows.find? (stateOfConversation conv), db.states.rows.find? (stateOfContact conv c.id)⟩

def rowOf (db : InboxDb) (c : ContactRow) : Joined :=
  ⟨c, db.assignments.rows.find? fun a => decide (a.active = some c.id), db.threadOf c⟩

@[simp] theorem rowOf_c (db : InboxDb) (c : ContactRow) : (db.rowOf c).c = c := rfl

theorem threadJoin_eq (db : InboxDb) (c : ContactRow) : db.threadJoin c = [db.threadOf c] := by
  have hconv : leftJoin db.conversations.rows (liveConversation c.id) =
      [db.conversations.rows.find? (liveConversation c.id)] := by
    refine leftJoin_unique (db.conversations.unique _ (List.mem_cons_of_mem _ List.mem_cons_self)) (k := c.id) ?_
    intro v _ hv
    exact of_decide_eq_true (Bool.and_eq_true_iff.mp hv).1
  have hcsc : ∀ conv, leftJoin db.states.rows (stateOfConversation conv) =
      [db.states.rows.find? (stateOfConversation conv)] := by
    intro conv
    refine leftJoin_unique (db.states.unique _ (List.mem_cons_of_mem _ List.mem_cons_self))
      (k := (conv.map (·.id)).getD 0) fun s _ hs => ?_
    cases conv with
    | none => cases hs
    | some v => exact of_decide_eq_true hs
  have hcsl : ∀ conv, leftJoin db.states.rows (stateOfContact conv c.id) =
      [db.states.rows.find? (stateOfContact conv c.id)] := by
    intro conv
    refine leftJoin_unique (db.states.unique _ List.mem_cons_self) (k := c.id) fun s _ hs => ?_
    exact of_decide_eq_true (Bool.and_eq_true_iff.mp hs).2
  unfold threadJoin
  simp only [hconv, hcsc, hcsl]
  rfl

theorem joined_eq (db : InboxDb) (c : ContactRow) : db.joined c = [db.rowOf c] := by
  have hca : db.assignmentJoin c = [db.assignments.rows.find? fun a => decide (a.active = some c.id)] :=
    leftJoin_unique (db.assignments.unique _ List.mem_cons_self) (k := c.id) fun _ _ ha => of_decide_eq_true ha
  unfold joined
  rw [hca, threadJoin_eq]
  rfl

theorem flatMap_joined (db : InboxDb) (rows : List ContactRow) : rows.flatMap db.joined = rows.map db.rowOf := by
  rw [show db.joined = fun c => [db.rowOf c] from funext (joined_eq db)]
  exact List.flatMap_pure_eq_map _ _

theorem grp_eq (db : InboxDb) (i : ℕ) : db.grp i = if (db.mergedInto i).isEmpty then none else some
    { chatCount := (db.mergedInto i).length
      unreadCount := ((db.mergedInto i).map fun mc => (db.threadOf mc).unreadCount).sum
      lastMessageAt := ((db.mergedInto i).filterMap fun mc => ((db.threadOf mc).conv.bind (·.lastMessageAt)).or
        ((db.threadOf mc).csl.bind (·.lastMessageAt))).max?
      accountIds := ((db.mergedInto i).filterMap fun mc => (db.threadOf mc).account mc).dedup } := by
  have hrows : ((db.mergedInto i).flatMap fun mc => (db.threadJoin mc).map fun t => (mc, t)) =
      (db.mergedInto i).map fun mc => (mc, db.threadOf mc) := by
    simp only [threadJoin_eq, List.map_singleton]
    exact List.flatMap_pure_eq_map _ _
  unfold grp
  dsimp only
  rw [hrows, List.isEmpty_map, List.length_map, List.map_map, List.filterMap_map, List.filterMap_map]
  rfl

/-! ### The filters of the two queries -/

@[simp] theorem mergedGroup_true {predicate : Joined → Condition} :
    db.mergedGroup i predicate = some true ↔ ∃ mc ∈ db.mergedInto i, predicate (db.rowOf mc) = some true := by
  unfold mergedGroup
  rw [flatMap_joined, ex_true]
  simp only [List.mem_map, exists_exists_and_eq_and]

theorem search_iff (c : ContactRow) : buildSearchClause like o c = some true ↔ (countSearch like o c).foldr Sql.or (some false) = some true := by
  unfold buildSearchClause countSearch
  cases phoneSearchDigits o.search <;> simp

theorem account_iff {account : ℕ} : ((db.grp i).map fun g => g.accountIds.any fun id => id == account) = some true ↔
    ∃ mc ∈ db.mergedInto i, (db.threadOf mc).account mc = some account := by
  rw [grp_eq]
  cases hrows : db.mergedInto i with
  | nil => simp
  | cons mc rows =>
    rw [List.isEmpty_cons, if_neg Bool.false_ne_true, Option.map_some, Option.some_inj, List.any_eq_true]
    simp only [List.mem_dedup, List.mem_filterMap, beq_iff_eq, exists_eq_right]

theorem rowOf_ca {a : AssignmentRow} : (db.rowOf c).ca = some a ↔ a ∈ db.assignments.rows ∧ a.active = some c.id := by
  have hactive : ∀ {b}, (db.rowOf c).ca = some b → b.active = some c.id := fun {b} hfind =>
    of_decide_eq_true (List.find?_some (p := fun a : AssignmentRow => decide (a.active = some c.id)) hfind)
  constructor
  · intro hfind
    exact ⟨List.mem_of_find?_eq_some hfind, hactive hfind⟩
  · rintro ⟨ha, hac⟩
    cases hfind : (db.rowOf c).ca with
    | none => exact absurd (decide_eq_true hac) (List.find?_eq_none.mp hfind a ha)
    | some b =>
      have hb := List.mem_of_find?_eq_some hfind
      exact congrArg some ((db.assignments.unique _ List.mem_cons_self).eq hb ha (hactive hfind) hac)

theorem mem_mergedAssignments {a : AssignmentRow} : a ∈ db.mergedAssignments i ↔
    ∃ mc ∈ db.mergedInto i, (db.rowOf mc).ca = some a := by
  unfold mergedAssignments
  simp only [List.mem_flatMap, List.mem_filter, decide_eq_true_eq, rowOf_ca]

theorem assignment_iff : (∀ s ∈ db.buildAssignmentClause o (db.rowOf c), s = some true) ↔
    ∀ s ∈ db.countAssignment o (db.rowOf c), s = some true := by
  have hgroup : ∀ userId, db.assignedInGroup (db.rowOf c) userId = some true ↔
      or (eq ((db.rowOf c).ca.map (·.assignedTo)) (some userId)) (db.mergedGroup c.id fun m =>
        eq (m.ca.map (·.assignedTo)) (some userId)) = some true := by
    intro userId
    unfold assignedInGroup
    rw [Sql.or_true, Sql.or_true, mergedGroup_true, ex_true]
    refine or_congr_right ⟨?_, ?_⟩
    · rintro ⟨a, ha, heq⟩
      obtain ⟨mc, hmc, hca⟩ := mem_mergedAssignments.mp ha
      exact ⟨mc, hmc, by rw [hca]; exact heq⟩
    · rintro ⟨mc, hmc, heq⟩
      obtain ⟨x, hx, hu⟩ := eq_true.mp heq
      obtain ⟨a, hca, rfl⟩ := Option.map_eq_some_iff.mp hx
      exact ⟨a, mem_mergedAssignments.mpr ⟨mc, hmc, hca⟩, eq_true.mpr ⟨_, rfl, hu⟩⟩
  have hnobody : not (ex (db.mergedAssignments c.id) fun _ => some true) = some true ↔
      not (db.mergedGroup c.id fun m => some m.ca.isSome) = some true := by
    unfold mergedGroup
    rw [not_ex_true, not_ex_true, flatMap_joined]
    constructor
    · intro h m hm hsome
      obtain ⟨mc, hmc, rfl⟩ := List.mem_map.mp hm
      obtain ⟨a, hca⟩ := Option.isSome_iff_exists.mp (Option.some.inj hsome)
      exact h a (mem_mergedAssignments.mpr ⟨mc, hmc, hca⟩) rfl
    · intro h a ha _
      obtain ⟨mc, hmc, hca⟩ := mem_mergedAssignments.mp ha
      exact h _ (List.mem_map_of_mem hmc) (by rw [hca]; rfl)
  unfold buildAssignmentClause countAssignment
  cases o.userId <;> cases o.restrictToAssigned <;> cases o.assignedToMe <;> cases o.unassigned <;>
    simp [hgroup, hnobody, rowOf_c]

theorem sum_pos_iff {rows : List ContactRow} {f : ContactRow → ℤ} (h : ∀ mc ∈ rows, 0 ≤ f mc) :
    0 ≤ (rows.map f).sum ∧ (0 < (rows.map f).sum ↔ ∃ mc ∈ rows, 0 < f mc) := by
  induction rows with
  | nil => simp
  | cons mc rows ih =>
    obtain ⟨hmc, hrows⟩ := List.forall_mem_cons.mp h
    obtain ⟨hnonneg, hpos⟩ := ih hrows
    rw [List.map_cons, List.sum_cons, List.exists_mem_cons_iff, ← hpos]
    omega

theorem unread_nonneg (h : ∀ s ∈ db.states.rows, 0 ≤ s.unreadCount) (c : ContactRow) : 0 ≤ (db.threadOf c).unreadCount := by
  have hfound : ∀ p, ∀ n ∈ (db.states.rows.find? p).map (·.unreadCount), 0 ≤ n := by
    intro p n hn
    obtain ⟨s, hs, rfl⟩ := Option.map_eq_some_iff.mp hn
    exact h s (List.mem_of_find?_eq_some hs)
  unfold ThreadColumns.unreadCount
  cases hcsc : (db.threadOf c).csc.map (·.unreadCount) with
  | some n => exact hfound _ n hcsc
  | none =>
    cases hcsl : (db.threadOf c).csl.map (·.unreadCount) with
    | some n => exact hfound _ n hcsl
    | none => exact Int.le_refl 0

theorem unread_iff (h : ∀ s ∈ db.states.rows, 0 ≤ s.unreadCount) : 0 < ((db.grp i).map (·.unreadCount)).getD 0 ↔
    ∃ mc ∈ db.mergedInto i, 0 < (db.threadOf mc).unreadCount := by
  rw [← (sum_pos_iff fun mc _ => unread_nonneg h mc).2, grp_eq]
  cases hrows : db.mergedInto i with
  | nil => simp
  | cons mc rows => rfl

theorem where_iff (h : ∀ s ∈ db.states.rows, 0 ≤ s.unreadCount) (c : ContactRow) :
    db.buildContactWhereClause like o (db.rowOf c) = some true ↔ db.countWhere like o (db.rowOf c) = some true := by
  have haccount : ∀ account, ((db.grp c.id).map fun g => g.accountIds.any fun id => id == account) = some true ↔
      db.mergedGroup c.id (fun m => eq (m.thread.account m.c) (some account)) = some true := by
    intro account
    rw [account_iff, mergedGroup_true]
    simp [rowOf]
  have hunread : some (decide (0 < ((db.grp c.id).map (·.unreadCount)).getD 0)) = some true ↔
      db.mergedGroup c.id (fun m => some (decide (0 < m.thread.unreadCount))) = some true := by
    rw [Option.some_inj, decide_eq_true_eq, unread_iff h, mergedGroup_true]
    exact exists_congr fun mc => and_congr_right fun _ => by rw [Option.some_inj, decide_eq_true_eq]; rfl
  have hconnection : ∀ connectionId, ex (db.mergedInto c.id) (fun mc => eq mc.whatsappConnectionId (some connectionId)) =
      some true ↔ db.mergedGroup c.id (fun m => eq m.c.whatsappConnectionId (some connectionId)) = some true := by
    intro connectionId
    rw [ex_true, mergedGroup_true]
    rfl
  have htags : ex db.tags (fun ct => and (eq (some ct.contactId) (some c.id)) (some (o.tagIds.contains ct.tagId))) = some true ↔
      some (((db.tags.filter fun ct => o.tagIds.contains ct.tagId).map (·.contactId)).contains c.id) = some true := by
    rw [ex_true, Option.some_inj, List.contains_iff_mem, List.mem_map]
    refine exists_congr fun ct => ?_
    rw [Sql.and_true, Sql.eq_true, List.mem_filter, Option.some_inj]
    constructor
    · rintro ⟨hct, ⟨x, hx, hc⟩, htag⟩
      exact ⟨⟨hct, htag⟩, Option.some.inj (hx.trans hc.symm)⟩
    · rintro ⟨⟨hct, htag⟩, heq⟩
      exact ⟨hct, ⟨_, rfl, congrArg some heq.symm⟩, htag⟩
  have hwhen : ∀ {p : Prop} [Decidable p] {s : Condition},
      ((∀ x ∈ (if p then [] else [s]), x = some true) ↔ (¬p → s = some true)) ∧
        ((∀ x ∈ (if p then [s] else []), x = some true) ↔ (p → s = some true)) := by
    intro p _ s
    by_cases hp : p <;> simp [hp]
  unfold buildContactWhereClause countWhere
  dsimp only [rowOf_c]
  simp only [all_true, List.forall_mem_append, assignment_iff, hwhen, List.forall_mem_map, Option.mem_toList, Sql.or_true,
    search_iff, hconnection, haccount, htags, hunread]
  tauto

/-! ### The list and its total -/

theorem contactRows_eq (like : Text → Text → Bool) (o : ListOptions) (db : InboxDb) : db.contactRows like o =
    (db.contacts.rows.filter fun c => db.buildContactWhereClause like o (db.rowOf c) == some true).map fun c =>
      db.listed (db.rowOf c) := by
  unfold contactRows selected
  rw [flatMap_joined, List.filter_map, List.map_map]
  rfl

theorem total_eq (h : ∀ s ∈ db.states.rows, 0 ≤ s.unreadCount) :
    db.total like o = (db.contactRows like o).length := by
  unfold total
  rw [flatMap_joined, List.filter_map, List.length_map, contactRows_eq, List.length_map]
  refine congrArg List.length (List.filter_congr fun c _ => ?_)
  rw [Bool.eq_iff_iff]
  simp only [Function.comp_apply, beq_iff_eq]
  exact (where_iff h c).symm

theorem ids_nodup (like : Text → Text → Bool) (o : ListOptions) (db : InboxDb) :
    ((db.contactRows like o).map (·.id)).Nodup := by
  rw [contactRows_eq, List.map_map]
  have hids : (db.contacts.rows.map (·.id)).Nodup := by
    refine List.pairwise_map.mpr ((db.contacts.unique _ List.mem_cons_self).imp fun hab heq => ?_)
    exact hab.not_both rfl (congrArg some heq.symm)
  exact hids.sublist (List.filter_sublist.map _)

theorem before_antisymm {a b : ListedContact} (hab : before a b) (hba : before b a) : a.id = b.id := by
  unfold before at hab hba
  cases ha : a.lastMessageAt <;> cases hb : b.lastMessageAt <;> simp [ha, hb] at hab hba <;> omega

/-- **Rows and total agree.**  Whatever is asked for, the total is the number of rows, no contact has two of them, and
pages that are read one by one, each in an order that `ORDER BY` admits, hold every row once. -/
theorem contact_list_total (like : Text → Text → Bool) (o : ListOptions) (db : InboxDb)
    (hunread : ∀ s ∈ db.states.rows, 0 ≤ s.unreadCount) :
    db.total like o = (db.contactRows like o).length ∧ ((db.contactRows like o).map (·.id)).Nodup ∧
      ∀ limit ≥ 1, ∀ order : ℕ → List ListedContact, (∀ i, Ordering before (db.contactRows like o) (order i)) →
        ∀ k, db.total like o ≤ k * limit →
          ((List.range k).flatMap fun i => page limit (i * limit) (order i)).Perm (db.contactRows like o) := by
  have hnodup := ids_nodup like o db
  refine ⟨total_eq hunread, hnodup, fun limit _ order horder k hk => ?_⟩
  refine pages_perm (fun a ha b hb hab hba => ?_) horder ((total_eq hunread).symm ▸ hk)
  exact List.inj_on_of_nodup_map hnodup ha hb (before_antisymm hab hba)

/-- Two customers; the second one has an unread message. -/
def twoCustomers : InboxDb where
  contacts := ⟨[⟨2, none, none, none, none, none, none, some false, none⟩,
    ⟨1, none, none, none, none, none, none, some false, none⟩], by simp [Lib.Unique, Apart]⟩
  conversations := .empty
  states := ⟨[⟨some 1, none, none, 1, .open⟩], by simp [Lib.Unique]⟩
  assignments := .empty
  messages := []
  tags := []

def noFilter : ListOptions := ⟨[], false, none, none, [], false, false, none, false, none, false⟩

theorem contact_list_total_two : twoCustomers.total (fun _ _ => false) noFilter =
    (twoCustomers.contactRows (fun _ _ => false) noFilter).length ∧
      ((List.range 2).flatMap fun i => page 1 (i * 1) (twoCustomers.contactRows (fun _ _ => false) noFilter)).Perm
        (twoCustomers.contactRows (fun _ _ => false) noFilter) := by
  obtain ⟨htotal, -, hpages⟩ := contact_list_total (fun _ _ => false) noFilter twoCustomers (by simp [twoCustomers])
  exact ⟨htotal, hpages 1 (Nat.le_refl 1) (fun _ => _) (fun _ => ⟨.refl _, by decide⟩) 2 (by decide)⟩

end InboxDb

end TeamInbox.Contacts
