import TeamInbox.Contacts.Merge
import TeamInbox.Lib.Forest

/-!
# TeamInbox.Contacts.Locks — what the row locks of a merge are good for

The steps of a call, by name, and what holds in every run: a row has one holder, a merge that has made its checks
has both contacts locked, unmerged, and nobody changes them.  So the links of merged contacts stay a forest,
whatever the unmerges do.
-/

namespace TeamInbox.Contacts

open TeamInbox.Lib

inductive MergeMove (p : ℕ) (s : ContactDb) : MergeCall → ContactDb → MergeCall → Prop
  | merging {source target : ℕ} (hne : source ≠ target) : MergeMove p s .idle s (.merging source target)
  | unmerging {id : ℕ} : MergeMove p s .idle s (.unmerging id)
  | stop {x : MergeCall} : MergeMove p s x s .idle
  | abort {x : MergeCall} : MergeMove p s x (s.release p) .idle
  | lockSource {source target : ℕ} (hfree : s.free p (.contact source) = true) :
    MergeMove p s (.merging source target) (s.lock p (.contact source)) (.sourceLocked source target)
  | lockTarget {source target : ℕ} (hfree : s.free p (.contact target) = true) (hcan : s.canMerge source target = true) :
    MergeMove p s (.sourceLocked source target) (s.lock p (.contact target)) (.checked source target)
  | kinds {source target : ℕ} : MergeMove p s (.checked source target) s (.mergeable source target)
  | read {source target : ℕ} :
    MergeMove p s (.mergeable source target) s (.moving source target (s.endpointsOf source) [])
  | move {source target e : ℕ} {todo done : List ℕ} (hfree : s.free p (.endpoint e) = true) :
    MergeMove p s (.moving source target (e :: todo) done) (s.lock p (.endpoint e)) (.moving source target todo (e :: done))
  | merge {source target : ℕ} {done : List ℕ} :
    MergeMove p s (.moving source target [] done) ((s.commitMerge source target done).release p) .idle
  | check {id : ℕ} {event : MergeEvent} {row : Contact} (hevent : s.event id = some event)
      (hrow : s.contacts.find? event.source = some row) (halias : row.mergedInto = some event.target) :
    MergeMove p s (.unmerging id) s (.restoring id event (s.moved id) [])
  | restore {id e previous : ℕ} {event : MergeEvent} {todo done : List (ℕ × ℕ)}
      (hfree : s.free p (.endpoint e) = true)
      (hon : (s.endpoints.find? e).bind ContactEndpoint.contact = some event.target) :
    MergeMove p s (.restoring id event ((e, previous) :: todo) done) (s.lock p (.endpoint e))
      (.restoring id event todo ((e, previous) :: done))
  | skip {id e previous : ℕ} {event : MergeEvent} {todo done : List (ℕ × ℕ)}
      (hfree : s.free p (.endpoint e) = true)
      (hoff : (s.endpoints.find? e).bind ContactEndpoint.contact ≠ some event.target) :
    MergeMove p s (.restoring id event ((e, previous) :: todo) done) (s.lock p (.endpoint e))
      (.restoring id event todo done)
  | unmerge {id : ℕ} {event : MergeEvent} {done : List (ℕ × ℕ)} (hfree : s.free p (.contact event.source) = true) :
    MergeMove p s (.restoring id event [] done) ((s.commitUnmerge id event done).release p) .idle

theorem mergeNext_move {p : ℕ} {s w : ContactDb} {x y : MergeCall} (h : mergeNext p s x = some (w, y)) :
    MergeMove p s x w y := by
  cases x with
  | idle => exact nomatch h
  | merging source target =>
    obtain ⟨hfree, h⟩ := Option.ite_none_right_eq_some.mp h
    obtain ⟨rfl, rfl⟩ := Prod.mk.inj (Option.some.inj h)
    exact .lockSource hfree
  | sourceLocked source target =>
    obtain ⟨hfree, h⟩ := Option.ite_none_right_eq_some.mp h
    split_ifs at h with hcan
    · obtain ⟨rfl, rfl⟩ := Prod.mk.inj (Option.some.inj h)
      exact .lockTarget hfree hcan
    · obtain ⟨rfl, rfl⟩ := Prod.mk.inj (Option.some.inj h)
      exact .abort
  | checked source target =>
    have h : (if s.mergeableKinds source target then some (s, MergeCall.mergeable source target)
        else some (s.release p, .idle)) = some (w, y) := h
    split_ifs at h
    · obtain ⟨rfl, rfl⟩ := Prod.mk.inj (Option.some.inj h)
      exact .kinds
    · obtain ⟨rfl, rfl⟩ := Prod.mk.inj (Option.some.inj h)
      exact .abort
  | mergeable source target =>
    obtain ⟨rfl, rfl⟩ := Prod.mk.inj (Option.some.inj h)
    exact .read
  | moving source target todo done =>
    cases todo with
    | nil =>
      obtain ⟨rfl, rfl⟩ := Prod.mk.inj (Option.some.inj h)
      exact .merge
    | cons e todo =>
      obtain ⟨hfree, h⟩ := Option.ite_none_right_eq_some.mp h
      obtain ⟨rfl, rfl⟩ := Prod.mk.inj (Option.some.inj h)
      exact .move hfree
  | unmerging id =>
    have h : (s, s.checkUnmerge id) = (w, y) := Option.some.inj h
    obtain ⟨rfl, rfl⟩ := Prod.mk.inj h
    unfold ContactDb.checkUnmerge
    split
    · exact .stop
    · next event hevent =>
      split
      · exact .stop
      · next row hrow =>
        split_ifs with halias
        · exact .check hevent hrow halias
        · exact .stop
  | restoring id event todo done =>
    cases todo with
    | nil =>
      obtain ⟨hfree, h⟩ := Option.ite_none_right_eq_some.mp h
      obtain ⟨rfl, rfl⟩ := Prod.mk.inj (Option.some.inj h)
      exact .unmerge hfree
    | cons m todo =>
      obtain ⟨e, previous⟩ := m
      obtain ⟨hfree, h⟩ := Option.ite_none_right_eq_some.mp h
      split_ifs at h with hon
      · obtain ⟨rfl, rfl⟩ := Prod.mk.inj (Option.some.inj h)
        exact .restore hfree hon
      · obtain ⟨rfl, rfl⟩ := Prod.mk.inj (Option.some.inj h)
        exact .skip hfree hon

theorem mergeAct_move {p : ℕ} {s w : ContactDb} {x y : MergeCall} {a : MergeAction}
    (h : mergeAct p s x a = some (w, y)) : MergeMove p s x w y := by
  unfold mergeAct at h
  split at h
  · obtain ⟨rfl, rfl⟩ := Prod.mk.inj (Option.some.inj h)
    split_ifs with heq
    · exact .stop
    · exact .merging heq
  · obtain ⟨rfl, rfl⟩ := Prod.mk.inj (Option.some.inj h)
    exact .unmerging
  · exact mergeNext_move h
  · exact nomatch h
  · obtain ⟨rfl, rfl⟩ := Prod.mk.inj (Option.some.inj h)
    exact .abort
  · exact nomatch h

/-! ### Locks -/

section Locks

variable {p q : ℕ} {s w : ContactDb} {x y : MergeCall}

theorem free_iff {row : LockedRow} : s.free p row = true ↔ ∀ l ∈ s.locks, l.1 = row → l.2 = p := by
  unfold ContactDb.free
  rw [List.all_eq_true]
  exact forall_congr' fun l => forall_congr' fun _ => decide_eq_true_iff

theorem mem_release {l : LockedRow × ℕ} : l ∈ (s.release p).locks ↔ l ∈ s.locks ∧ l.2 ≠ p := by
  show l ∈ s.locks.filter (fun l => decide (l.2 ≠ p)) ↔ _
  rw [List.mem_filter, decide_eq_true_iff]

theorem MergeMove.locks (h : MergeMove p s x w y) {l : LockedRow × ℕ} (hl : l.2 ≠ p) : l ∈ w.locks ↔ l ∈ s.locks := by
  have htaken : ∀ row, l ∈ (s.lock p row).locks ↔ l ∈ s.locks := fun row => by
    refine ⟨fun h => ?_, List.mem_cons_of_mem _⟩
    rcases List.mem_cons.mp h with rfl | h
    · exact absurd rfl hl
    · exact h
  have hreleased : ∀ t : ContactDb, t.locks = s.locks → (l ∈ (t.release p).locks ↔ l ∈ s.locks) := fun t ht => by
    rw [mem_release, ht]
    exact and_iff_left hl
  cases h with
  | merging | unmerging | stop | kinds | read | check => exact Iff.rfl
  | lockSource | lockTarget | move | restore | skip => exact htaken _
  | abort => exact hreleased _ rfl
  | merge => exact hreleased _ rfl
  | unmerge => exact hreleased _ rfl

def Exclusive (s : ContactDb) : Prop := ∀ l ∈ s.locks, ∀ l' ∈ s.locks, l.1 = l'.1 → l.2 = l'.2

theorem Exclusive.lock (h : Exclusive s) {row : LockedRow} (hfree : s.free p row = true) : Exclusive (s.lock p row) := by
  have hall : ∀ l ∈ s.locks, l.1 = row → l.2 = p := free_iff.mp hfree
  intro l hl l' hl' heq
  rcases List.mem_cons.mp hl with rfl | hl
  · rcases List.mem_cons.mp hl' with rfl | hl'
    · rfl
    · exact (hall l' hl' heq.symm).symm
  · rcases List.mem_cons.mp hl' with rfl | hl'
    · exact hall l hl heq
    · exact h l hl l' hl' heq

theorem Exclusive.release (h : Exclusive s) {t : ContactDb} (ht : t.locks = s.locks) : Exclusive (t.release p) :=
  fun l hl l' hl' heq => by
    have hl := (mem_release.mp hl).1
    have hl' := (mem_release.mp hl').1
    rw [ht] at hl hl'
    exact h l hl l' hl' heq

theorem MergeMove.exclusive (hE : Exclusive s) (h : MergeMove p s x w y) : Exclusive w := by
  cases h with
  | merging | unmerging | stop | kinds | read | check => exact hE
  | lockSource hfree | lockTarget hfree | move hfree | restore hfree | skip hfree => exact hE.lock hfree
  | abort => exact hE.release rfl
  | merge => exact hE.release rfl
  | unmerge => exact hE.release rfl

/-- Call `p` has the contact locked. -/
def Held (s : ContactDb) (p : ℕ) (i : ℕ) : Prop := (LockedRow.contact i, p) ∈ s.locks

theorem Held.kept (h : MergeMove p s x w y) (hqp : q ≠ p) {i : ℕ} (hheld : Held s q i) : Held w q i :=
  (h.locks hqp).mpr hheld

def ContactDb.Root (s : ContactDb) (i : ℕ) : Prop := ∃ r, s.contacts.find? i = some r ∧ r.mergedInto = none

def ContactDb.parent (s : ContactDb) (i : ℕ) : Option ℕ := (s.contacts.find? i).bind Contact.mergedInto

theorem ContactDb.Root.parent {i : ℕ} (h : s.Root i) : s.parent i = none := by
  obtain ⟨r, hr, hnone⟩ := h
  unfold ContactDb.parent
  rw [hr]
  exact hnone

/-- What a call relies on of the contacts it has locked. -/
def LockOk (s : ContactDb) (p : ℕ) : MergeCall → Prop
  | .merging source target => source ≠ target
  | .sourceLocked source target => source ≠ target ∧ Held s p source
  | .checked source target | .mergeable source target | .moving source target _ _ =>
    source ≠ target ∧ (Held s p source ∧ s.Root source) ∧ Held s p target ∧ s.Root target
  | _ => True

theorem MergeMove.contacts_kept (hE : Exclusive s) (hx : LockOk s p x) (h : MergeMove p s x w y) (hqp : q ≠ p) {i : ℕ}
    (hheld : Held s q i) : w.contacts.find? i = s.contacts.find? i := by
  cases h with
  | merging | unmerging | stop | abort | lockSource | lockTarget | kinds | read | move | check | restore | skip => rfl
  | merge =>
    refine Table.find?_updateWhere_ne _ _ fun heq => ?_
    subst heq
    exact hqp (hE _ hheld _ hx.2.1.1 rfl)
  | unmerge hfree =>
    refine Table.find?_updateWhere_ne _ _ fun heq => ?_
    subst heq
    exact hqp (free_iff.mp hfree _ hheld rfl)

theorem LockOk.kept (hE : Exclusive s) (hx : LockOk s p x) (h : MergeMove p s x w y) (hqp : q ≠ p) {z : MergeCall}
    (hz : LockOk s q z) : LockOk w q z := by
  have hroot : ∀ i, Held s q i ∧ s.Root i → Held w q i ∧ w.Root i := fun i hi => by
    obtain ⟨r, hr, hnone⟩ := hi.2
    exact ⟨hi.1.kept h hqp, r, (h.contacts_kept hE hx hqp hi.1).trans hr, hnone⟩
  cases z with
  | idle | unmerging | restoring => trivial
  | merging => exact hz
  | sourceLocked source target => exact ⟨hz.1, hz.2.kept h hqp⟩
  | checked source target | mergeable source target | moving source target =>
    exact ⟨hz.1, hroot source hz.2.1, hroot target hz.2.2⟩

theorem canMerge_roots {source target : ℕ} (h : s.canMerge source target = true) : s.Root source ∧ s.Root target := by
  unfold ContactDb.canMerge at h
  split at h
  · next x y hx hy =>
    simp only [Bool.and_eq_true, Option.isNone_iff_eq_none] at h
    exact ⟨⟨x, hx, h.1.2⟩, ⟨y, hy, h.2⟩⟩
  · exact nomatch h

theorem LockOk.next (hx : LockOk s p x) (h : MergeMove p s x w y) : LockOk w p y := by
  cases h with
  | merging hne => exact hne
  | unmerging | stop | abort | merge | unmerge | check | restore | skip => trivial
  | lockSource => exact ⟨hx, List.mem_cons_self⟩
  | lockTarget hfree hcan =>
    obtain ⟨hsource, htarget⟩ := canMerge_roots hcan
    exact ⟨hx.1, ⟨List.mem_cons_of_mem _ hx.2, hsource⟩, List.mem_cons_self, htarget⟩
  | kinds => exact hx
  | read => exact hx
  | move => exact ⟨hx.1, ⟨List.mem_cons_of_mem _ hx.2.1.1, hx.2.1.2⟩, List.mem_cons_of_mem _ hx.2.2.1, hx.2.2.2⟩

/-! ### The links -/

theorem parent_of_update {t : ContactDb} {i : ℕ} {f : Contact → Contact} {row : Contact} {link : Option ℕ}
    (hrow : s.contacts.find? i = some row)
    (hcontacts : t.contacts = (s.contacts.updateWhere i (fun _ => True) f).1) (hf : ∀ r, (f r).mergedInto = link) :
    t.parent = Function.update s.parent i link := by
  funext j
  unfold ContactDb.parent
  rw [hcontacts]
  by_cases hj : j = i
  · subst hj
    rw [Function.update_self, Table.find?_updateWhere_self, hrow]
    exact hf row
  · rw [Function.update_of_ne hj, Table.find?_updateWhere_ne _ _ hj]

theorem parent_of_missing {t : ContactDb} {i : ℕ} {f : Contact → Contact} (hrow : s.contacts.find? i = none)
    (hcontacts : t.contacts = (s.contacts.updateWhere i (fun _ => True) f).1) : t.parent = s.parent := by
  funext j
  unfold ContactDb.parent
  rw [hcontacts]
  by_cases hj : j = i
  · subst hj
    rw [Table.find?_updateWhere_self, hrow]
    rfl
  · rw [Table.find?_updateWhere_ne _ _ hj]

theorem isSome_updateWhere (t : Table ℕ Contact) (i j : ℕ) (f : Contact → Contact) :
    ((t.updateWhere i (fun _ => True) f).1.find? j).isSome = (t.find? j).isSome := by
  rw [Table.find?_updateWhere]
  split_ifs with h
  · rw [h, Option.isSome_map]
  · rfl

/-- A row has one holder; the links lead to contacts, and are a forest. -/
structure LinkInv (s : ContactDb) : Prop where
  exclusive : Exclusive s
  linked : ∀ i t, s.parent i = some t → (s.contacts.find? t).isSome = true
  forest : Forest s.parent

theorem MergeMove.contacts_isSome (h : MergeMove p s x w y) (i : ℕ) :
    (w.contacts.find? i).isSome = (s.contacts.find? i).isSome := by
  cases h with
  | merging | unmerging | stop | abort | lockSource | lockTarget | kinds | read | move | check | restore | skip => rfl
  | merge => exact isSome_updateWhere _ _ _ _
  | unmerge => exact isSome_updateWhere _ _ _ _

theorem MergeMove.parent_cases (hx : LockOk s p x) (h : MergeMove p s x w y) :
    w.parent = s.parent ∨
      (∃ i t, i ≠ t ∧ s.Root i ∧ s.Root t ∧ w.parent = Function.update s.parent i (some t)) ∨
      ∃ i, w.parent = Function.update s.parent i none := by
  cases h with
  | merging | unmerging | stop | abort | lockSource | lockTarget | kinds | read | move | check | restore | skip =>
    exact .inl rfl
  | merge =>
    obtain ⟨hne, ⟨-, hsource⟩, -, htarget⟩ := hx
    have hroot := hsource
    obtain ⟨row, hrow, -⟩ := hroot
    exact .inr (.inl ⟨_, _, hne, hsource, htarget, parent_of_update hrow rfl fun _ => rfl⟩)
  | unmerge =>
    rename_i id event done hfree
    cases hrow : s.contacts.find? event.source with
    | none => exact .inl (parent_of_missing hrow rfl)
    | some row => exact .inr (.inr ⟨event.source, parent_of_update hrow rfl fun _ => rfl⟩)

theorem LinkInv.move (hI : LinkInv s) (hx : LockOk s p x) (h : MergeMove p s x w y) : LinkInv w := by
  refine ⟨h.exclusive hI.exclusive, fun i t hi => ?_, ?_⟩
  · rw [h.contacts_isSome]
    rcases h.parent_cases hx with hw | ⟨j, u, -, -, ⟨row, hrow, -⟩, hw⟩ | ⟨j, hw⟩
    · exact hI.linked i t (hw ▸ hi)
    · rw [hw] at hi
      by_cases hij : i = j
      · rw [hij, Function.update_self] at hi
        obtain rfl := Option.some.inj hi
        rw [hrow]
        rfl
      · rw [Function.update_of_ne hij] at hi
        exact hI.linked i t hi
    · rw [hw] at hi
      by_cases hij : i = j
      · rw [hij, Function.update_self] at hi
        exact nomatch hi
      · rw [Function.update_of_ne hij] at hi
        exact hI.linked i t hi
  · rcases h.parent_cases hx with hw | ⟨j, u, hne, hj, hu, hw⟩ | ⟨j, hw⟩
    · rw [hw]
      exact hI.forest
    · rw [hw]
      exact hI.forest.link hj.parent hu.parent hne
    · rw [hw]
      exact hI.forest.cut j

end Locks

def LocksHold : Calls ContactDb MergeCall → Prop := Holds LinkInv LockOk

theorem locksHold_step (t : Calls ContactDb MergeCall) (a : CallAction MergeAction Empty) (t' : Calls ContactDb MergeCall)
    (hI : LocksHold t) (h : mergeSystem.step t a = some t') : LocksHold t' := by
  refine Machine.holds_step (M := mergeSystem) (C := fun _ _ => True) (fun t p a w x hI _ hact => ?_)
    (fun t e => nomatch e) t a t' hI trivial h
  have hmove : MergeMove p t.shared (t.calls p) w x := mergeAct_move hact
  exact ⟨hI.1.move (hI.2 p) hmove, (hI.2 p).next hmove, fun q hq => LockOk.kept hI.1.exclusive (hI.2 p) hmove hq (hI.2 q)⟩

theorem locksHold_start {s : ContactDb} (h : Unmerged s) : LocksHold (.start s .idle) := by
  have hparent : s.parent = fun _ => none := by
    funext i
    unfold ContactDb.parent
    cases hr : s.contacts.find? i with
    | none => rfl
    | some r => exact (h.contacts i r hr).1
  refine holds_start ⟨fun l hl => ?_, fun i t hi => ?_, ?_⟩ fun _ => trivial
  · rw [h.locks] at hl
    exact absurd hl List.not_mem_nil
  · rw [hparent] at hi
    exact nomatch hi
  · rw [hparent]
    exact forest_none

end TeamInbox.Contacts
