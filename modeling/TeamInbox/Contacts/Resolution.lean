import TeamInbox.Contacts.Locks
import Mathlib.Data.List.Dedup

/-!
# TeamInbox.Contacts.Resolution — merged customers resolve to their root

`resolveCanonicalContactId` follows the links upwards, and the recursive query of `resolveCustomerThreads` goes up
to the canonical contact and down again to what has been merged into it.  Both stop after eight rows, so that they
agree on every contact with fewer than eight links to its root, and answer nothing for the others.
-/

namespace TeamInbox.Contacts

open TeamInbox.Lib

/-! ### The two resolutions -/

def MAX_MERGE_ALIAS_DEPTH : ℕ := 8

/-- The loop of `resolveCanonicalContactId`. -/
def canonicalWithin (s : ContactDb) : ℕ → ℕ → Option ℕ
  | 0, _ => none
  | depth + 1, current =>
    match s.contacts.find? current with
    | none => none
    | some row =>
      match row.mergedInto with
      | none => some current
      | some next => canonicalWithin s depth next

def resolveCanonicalContactId (s : ContactDb) (contact : ℕ) : Option ℕ :=
  canonicalWithin s MAX_MERGE_ALIAS_DEPTH contact

structure Conversation where
  legacyContact : Option ℕ
  archived : Bool
  deriving DecidableEq

structure ConversationParticipant where
  conversation : ℕ
  endpoint : Option ℕ
  left : Bool
  deriving DecidableEq

structure Spine where
  conversations : Table ℕ Conversation
  participants : List ConversationParticipant

/-- Ids of contacts and of conversations do not meet. -/
inductive RequestedId
  | contact (id : ℕ)
  | conversation (id : ℕ)
  deriving DecidableEq

structure CustomerThread where
  conversationId : Option ℕ
  contactId : Option ℕ
  deriving DecidableEq

structure CustomerThreadSet where
  canonicalContactId : ℕ
  threads : List CustomerThread
  deriving DecidableEq

section Threads

variable (s : ContactDb) (sp : Spine)

def requested : RequestedId → List ℕ
  | .contact id => if (s.contacts.find? id).isSome then [id] else []
  | .conversation id => ((sp.conversations.find? id).bind Conversation.legacyContact).toList

/-- The rows of `up`, from the depth that is left. -/
def upRows : ℕ → List ℕ → List (ℕ × Contact)
  | 0, _ => []
  | depth + 1, ids =>
    let rows := ids.filterMap fun i => (s.contacts.find? i).map fun r => (i, r)
    rows ++ upRows depth (rows.filterMap fun r => r.2.mergedInto)

def canonical (ids : List ℕ) : Option ℕ :=
  ((upRows s MAX_MERGE_ALIAS_DEPTH ids).find? fun r => r.2.mergedInto.isNone).map Prod.fst

def mergedInto (i : ℕ) : List ℕ :=
  (s.contacts.entries.filter fun e => decide (e.2.mergedInto = some i)).map Prod.fst

/-- The rows of `grp`, from the depth that is left. -/
def grp : ℕ → List ℕ → List ℕ
  | 0, _ => []
  | depth + 1, ids => ids ++ grp depth (ids.flatMap (mergedInto s))

/-- The conversations in which an endpoint of the contact takes part. -/
def conversationThreads (i : ℕ) : List CustomerThread :=
  (s.endpointsOf i).flatMap fun e => sp.participants.filterMap fun m =>
    if m.endpoint = some e ∧ m.left = false then
      (sp.conversations.find? m.conversation).bind fun c =>
        if c.archived then none else some ⟨some m.conversation, c.legacyContact⟩
    else none

/-- The rows of the query, below the canonical contact. -/
def threadRows (root : ℕ) : List CustomerThread :=
  let group := grp s MAX_MERGE_ALIAS_DEPTH [root]
  let own : List CustomerThread := group.map fun i => ⟨none, some i⟩
  (group.flatMap (conversationThreads s sp) ++ own).dedup

def resolveCustomerThreads (id : RequestedId) : Option CustomerThreadSet :=
  (canonical s (requested s sp id)).map fun root => ⟨root, threadRows s sp root⟩

end Threads

/-! ### What is claimed -/

/-- The links are a forest, and both resolutions find the root of every contact that is fewer than eight links below
it; the threads are those of the contacts that are so few links below this root. -/
structure Resolved (sp : Spine) (s : ContactDb) : Prop where
  forest : Forest s.parent
  root : ∀ i n r, (s.contacts.find? i).isSome = true → RootAt s.parent n i r → (s.contacts.find? r).isSome = true
  canonical : ∀ i n r, (s.contacts.find? i).isSome = true → RootAt s.parent n i r →
    resolveCanonicalContactId s i = if n < 8 then some r else none
  threads : ∀ i n r, (s.contacts.find? i).isSome = true → RootAt s.parent n i r →
    if n < 8 then ∃ ts, resolveCustomerThreads s sp (.contact i) = some ⟨r, ts⟩ ∧
      ∀ j, ⟨none, some j⟩ ∈ ts ↔ ∃ m < 8, RootAt s.parent m j r
    else resolveCustomerThreads s sp (.contact i) = none
  sameThreads : ∀ i j, ∀ a ∈ resolveCustomerThreads s sp (.contact i), ∀ b ∈ resolveCustomerThreads s sp (.contact j),
    (∀ t, t ∈ a.threads ↔ t ∈ b.threads) ↔ resolveCanonicalContactId s i = resolveCanonicalContactId s j

/-! ### The walks -/

section Walks

variable {s : ContactDb} {sp : Spine}

theorem parent_of_find? {i : ℕ} {row : Contact} (h : s.contacts.find? i = some row) : s.parent i = row.mergedInto := by
  unfold ContactDb.parent
  rw [h]
  rfl

theorem canonicalWithin_rootAt (hlinked : ∀ i t, s.parent i = some t → (s.contacts.find? t).isSome = true) {k n i r : ℕ}
    (hi : (s.contacts.find? i).isSome = true) (h : RootAt s.parent n i r) :
    canonicalWithin s k i = if n < k then some r else none := by
  induction k generalizing n i with
  | zero => rfl
  | succ k ih =>
    obtain ⟨row, hrow⟩ := Option.isSome_iff_exists.mp hi
    have hparent : s.parent i = row.mergedInto := parent_of_find? hrow
    unfold canonicalWithin
    rw [hrow]
    cases hnext : row.mergedInto with
    | none =>
      obtain ⟨rfl, rfl⟩ := h.unique (rootAt_zero.mpr ⟨rfl, hparent.trans hnext⟩)
      simp only [hnext]
      rw [if_pos (Nat.succ_pos k)]
    | some next =>
      cases n with
      | zero =>
        rw [hnext, (rootAt_zero.mp h).2] at hparent
        exact nomatch hparent
      | succ n =>
        obtain ⟨b, hb, hrest⟩ := rootAt_succ.mp h
        obtain rfl : b = next := Option.some.inj (hb.symm.trans (hparent.trans hnext))
        simp only [hnext]
        rw [ih (hlinked i b hb) hrest]
        simp only [Nat.add_lt_add_iff_right]

theorem upRows_nil (k : ℕ) : upRows s k [] = [] := by
  induction k with
  | zero => rfl
  | succ k ih => exact ih

theorem canonical_single (i : ℕ) (k : ℕ) :
    ((upRows s k [i]).find? fun r => r.2.mergedInto.isNone).map Prod.fst = canonicalWithin s k i := by
  induction k generalizing i with
  | zero => rfl
  | succ k ih =>
    cases hrow : s.contacts.find? i with
    | none =>
      have hrows : upRows s (k + 1) [i] = upRows s k [] := by
        simp only [upRows, List.filterMap_cons, hrow, List.filterMap_nil, Option.map_none, List.nil_append]
      rw [hrows, upRows_nil, canonicalWithin, hrow]
      rfl
    | some row =>
      have hrows : upRows s (k + 1) [i] = (i, row) :: upRows s k row.mergedInto.toList := by
        simp only [upRows, List.filterMap_cons, hrow, List.filterMap_nil, Option.map_some, List.cons_append,
          List.nil_append]
        cases row.mergedInto <;> rfl
      rw [hrows, canonicalWithin, hrow]
      cases hnext : row.mergedInto with
      | none =>
        rw [List.find?_cons_of_pos (by rw [hnext]; rfl)]
        simp only [hnext, Option.map_some]
      | some next =>
        rw [List.find?_cons_of_neg (by rw [hnext]; exact Bool.false_ne_true)]
        simp only [hnext]
        exact ih next

theorem mem_mergedInto {i j : ℕ} : j ∈ mergedInto s i ↔ s.parent j = some i := by
  constructor
  · intro h
    obtain ⟨⟨j', row⟩, hmem, rfl⟩ := List.mem_map.mp h
    obtain ⟨hentry, hmerged⟩ := List.mem_filter.mp hmem
    exact (parent_of_find? (Table.mem_entries.mp hentry)).trans (of_decide_eq_true hmerged)
  · intro h
    obtain ⟨row, hrow, hmerged⟩ := Option.bind_eq_some_iff.mp h
    refine List.mem_map.mpr ⟨(j, row), List.mem_filter.mpr ⟨Table.mem_entries.mpr hrow, ?_⟩, rfl⟩
    exact decide_eq_true hmerged

theorem mem_grp {k j : ℕ} {ids : List ℕ} : j ∈ grp s k ids ↔ ∃ m < k, ∃ i ∈ ids, climb s.parent m j = some i := by
  induction k generalizing ids with
  | zero =>
    constructor
    · intro h
      exact absurd h List.not_mem_nil
    · rintro ⟨m, hm, -⟩
      exact absurd hm (Nat.not_lt_zero m)
  | succ k ih =>
    show j ∈ ids ++ grp s k (ids.flatMap (mergedInto s)) ↔ _
    rw [List.mem_append, ih]
    constructor
    · rintro (h | ⟨m, hm, c, hc, hclimb⟩)
      · exact ⟨0, Nat.succ_pos k, j, h, rfl⟩
      · obtain ⟨i, hi, hci⟩ := List.mem_flatMap.mp hc
        exact ⟨m + 1, Nat.succ_lt_succ hm, i, hi, climb_succ'.mpr ⟨c, hclimb, mem_mergedInto.mp hci⟩⟩
    · rintro ⟨m, hm, i, hi, hclimb⟩
      cases m with
      | zero =>
        obtain rfl := Option.some.inj hclimb
        exact .inl hi
      | succ m =>
        obtain ⟨c, hc, hparent⟩ := climb_succ'.mp hclimb
        exact .inr ⟨m, Nat.lt_of_succ_lt_succ hm, c, List.mem_flatMap.mpr ⟨i, hi, mem_mergedInto.mpr hparent⟩, hc⟩

theorem mem_group_root {j r : ℕ} (hr : s.parent r = none) :
    j ∈ grp s MAX_MERGE_ALIAS_DEPTH [r] ↔ ∃ m < 8, RootAt s.parent m j r := by
  rw [mem_grp]
  constructor
  · rintro ⟨m, hm, i, hi, hclimb⟩
    obtain rfl := List.mem_singleton.mp hi
    exact ⟨m, hm, hclimb, hr⟩
  · rintro ⟨m, hm, hclimb, -⟩
    exact ⟨m, hm, r, List.mem_singleton_self r, hclimb⟩

theorem conversationThreads_ne_none {i : ℕ} {t : CustomerThread} (h : t ∈ conversationThreads s sp i) :
    t.conversationId ≠ none := by
  obtain ⟨e, -, he⟩ := List.mem_flatMap.mp h
  obtain ⟨m, -, hm⟩ := List.mem_filterMap.mp he
  obtain ⟨-, hm⟩ := Option.ite_none_right_eq_some.mp hm
  obtain ⟨c, -, hc⟩ := Option.bind_eq_some_iff.mp hm
  obtain ⟨-, hc⟩ := Option.ite_none_left_eq_some.mp hc
  obtain rfl := Option.some.inj hc
  exact Option.some_ne_none _

theorem resolveCustomerThreads_contact {i : ℕ} (hi : (s.contacts.find? i).isSome = true) :
    resolveCustomerThreads s sp (.contact i) =
      (resolveCanonicalContactId s i).map fun root => ⟨root, threadRows s sp root⟩ := by
  unfold resolveCustomerThreads
  have hrequested : requested s sp (.contact i) = [i] := if_pos hi
  rw [hrequested, canonical, canonical_single]
  rfl

theorem mem_threadRows {root j : ℕ} :
    (⟨none, some j⟩ : CustomerThread) ∈ threadRows s sp root ↔ j ∈ grp s MAX_MERGE_ALIAS_DEPTH [root] := by
  unfold threadRows
  rw [List.mem_dedup, List.mem_append]
  constructor
  · rintro (h | h)
    · obtain ⟨i, -, hi⟩ := List.mem_flatMap.mp h
      exact absurd rfl (conversationThreads_ne_none hi)
    · obtain ⟨i, hi, heq⟩ := List.mem_map.mp h
      obtain rfl : i = j := Option.some.inj (CustomerThread.mk.inj heq).2
      exact hi
  · intro h
    exact .inr (List.mem_map.mpr ⟨j, h, rfl⟩)

theorem isSome_of_climb (hlinked : ∀ i t, s.parent i = some t → (s.contacts.find? t).isSome = true) {n i r : ℕ}
    (hi : (s.contacts.find? i).isSome = true) (h : climb s.parent n i = some r) : (s.contacts.find? r).isSome = true := by
  cases n with
  | zero =>
    obtain rfl := Option.some.inj h
    exact hi
  | succ n =>
    obtain ⟨b, -, hlast⟩ := climb_succ'.mp h
    exact hlinked b r hlast

theorem resolved_root (hI : LinkInv s) {i : ℕ} {a : CustomerThreadSet}
    (ha : resolveCustomerThreads s sp (.contact i) = some a) :
    ∃ r, s.parent r = none ∧ resolveCanonicalContactId s i = some r ∧ a.threads = threadRows s sp r := by
  have hi : (s.contacts.find? i).isSome = true := by
    by_contra hnone
    have hrequested : requested s sp (.contact i) = [] := if_neg hnone
    unfold resolveCustomerThreads canonical at ha
    rw [hrequested, upRows_nil] at ha
    exact nomatch ha
  obtain ⟨n, r, hroot⟩ := hI.forest i
  rw [resolveCustomerThreads_contact hi] at ha
  obtain ⟨r', hr', rfl⟩ := Option.map_eq_some_iff.mp ha
  have hwithin : resolveCanonicalContactId s i = if n < 8 then some r else none :=
    canonicalWithin_rootAt hI.linked hi hroot
  rw [hr'] at hwithin
  split_ifs at hwithin
  · obtain rfl := Option.some.inj hwithin
    exact ⟨r', hroot.2, hr', rfl⟩

theorem LinkInv.resolved (hI : LinkInv s) : Resolved sp s where
  forest := hI.forest
  root := fun i n r hi h => isSome_of_climb hI.linked hi h.1
  canonical := fun i n r hi h => canonicalWithin_rootAt hI.linked hi h
  threads := fun i n r hi h => by
    have hwithin : resolveCanonicalContactId s i = if n < 8 then some r else none :=
      canonicalWithin_rootAt hI.linked hi h
    split_ifs with hn
    · rw [if_pos hn] at hwithin
      refine ⟨threadRows s sp r, ?_, fun j => mem_threadRows.trans (mem_group_root h.2)⟩
      rw [resolveCustomerThreads_contact hi, hwithin, Option.map_some]
    · rw [if_neg hn] at hwithin
      rw [resolveCustomerThreads_contact hi, hwithin, Option.map_none]
  sameThreads := fun i j a ha b hb => by
    obtain ⟨r, hr, hi, hathreads⟩ := resolved_root hI ha
    obtain ⟨r', hr', hj, hbthreads⟩ := resolved_root hI hb
    rw [hi, hj, hathreads, hbthreads]
    constructor
    · intro h
      -- a root is a thread of its own, and only of its own tree
      have hown : (⟨none, some r⟩ : CustomerThread) ∈ threadRows s sp r :=
        mem_threadRows.mpr ((mem_group_root hr).mpr ⟨0, Nat.succ_pos 7, rfl, hr⟩)
      obtain ⟨m, -, hclimb⟩ := (mem_group_root hr').mp (mem_threadRows.mp ((h _).mp hown))
      exact congrArg some (hclimb.unique (rootAt_zero.mpr ⟨rfl, hr⟩)).2.symm
    · intro h
      obtain rfl := Option.some.inj h
      exact fun _ => Iff.rfl

end Walks

/-- **Merged customers resolve to their root**, within eight rows, in every run. -/
theorem merged_customers_resolve (sp : Spine) (s : ContactDb) (hs : Unmerged s) (as : List (CallAction MergeAction Empty)) :
    Always mergeSystem.step (fun t => Resolved sp t.shared) (.start s .idle) as :=
  (always_of_step locksHold_step (locksHold_start hs) as).mono fun _ hI => hI.1.resolved

/-- Contact `n` is merged into the next one, by a call of its own; neither has an endpoint. -/
def mergeOn (n : ℕ) : List (CallAction MergeAction Empty) :=
  [.act n (.mergeContacts n (n + 1)), .act n .next, .act n .next, .act n .next, .act n .next, .act n .next]

theorem merged_customers_resolve_chain : Always mergeSystem.step
    (fun t => Resolved ⟨.empty, []⟩ t.shared) (.start (unmerged 3 .empty) .idle) (mergeOn 0 ++ mergeOn 1) :=
  merged_customers_resolve ⟨.empty, []⟩ (unmerged 3 .empty) (unmerged_unmerged 3 .empty) _

/-- Eight merges, each of the last one's target: the first contact resolves to nothing. -/
theorem merged_customer_lost : ¬ ∀ as, Always mergeSystem.step (fun t => ∀ i n r, (t.shared.contacts.find? i).isSome = true →
    RootAt t.shared.parent n i r → resolveCanonicalContactId t.shared i = some r) (.start (unmerged 9 .empty) .idle) as := by
  intro h
  have hrun : (runActions mergeSystem.step (.start (unmerged 9 .empty) .idle) ((List.range 8).flatMap mergeOn)).map
      (fun t => ((t.shared.contacts.find? 0).isSome, climb t.shared.parent 8 0, t.shared.parent 8,
        resolveCanonicalContactId t.shared 0)) = some (true, some 8, none, none) := by decide +kernel
  obtain ⟨t, ht, hend⟩ := Option.map_eq_some_iff.mp hrun
  obtain ⟨hsome, hend⟩ := Prod.mk.inj hend
  obtain ⟨hclimb, hend⟩ := Prod.mk.inj hend
  obtain ⟨hroot, hlost⟩ := Prod.mk.inj hend
  have hfound : resolveCanonicalContactId t.shared 0 = some 8 :=
    always_iff_reached.mp (h _) _ [] t (List.append_nil _).symm ht 0 8 8 hsome ⟨hclimb, hroot⟩
  rw [hlost] at hfound
  exact nomatch hfound

end TeamInbox.Contacts
