import TeamInbox.Media.Cleanup

/-!
# TeamInbox.Media.Coverage — no queued object is forgotten

The steps of writers and processors, by name.  An item leaves the queue only after a row has been found that refers to
its object, or after the object has been deleted: so an object that was ever queued is referenced, deleted, or still in
the queue.
-/

namespace TeamInbox.Media

open TeamInbox.Lib

/-! ### Steps -/

inductive MediaMove (naming : MediaNaming) (p : ℕ) (s : MediaStore) : MediaCall → MediaStore → MediaCall → Prop
  | write {rows : List MediaRow} : MediaMove naming p s .idle s (.validating rows (rowKeys naming rows))
  | exist {rows : List MediaRow} {key : String} {todo : List String} (hkey : key ∉ s.deleted) :
    MediaMove naming p s (.validating rows (key :: todo)) s (.validating rows todo)
  | missing {rows : List MediaRow} {todo : List String} : MediaMove naming p s (.validating rows todo) s .idle
  | begin {rows : List MediaRow} : MediaMove naming p s (.validating rows []) s (.reserving rows (rowKeys naming rows))
  | reserve {rows : List MediaRow} {key : String} {todo : List String} {locks : Locks ℤ}
      (hlock : s.locks.take p (naming.hashtext key) = some locks) :
    MediaMove naming p s (.reserving rows (key :: todo)) { s with locks := locks } (.reserving rows todo)
  | pass {rows : List MediaRow} (hnone : ∀ key ∈ rowKeys naming rows, s.intended key = false) :
    MediaMove naming p s (.reserving rows []) s (.inserting rows)
  | refuse {rows : List MediaRow} : MediaMove naming p s (.reserving rows []) (s.release p) .idle
  | insert {rows : List MediaRow} : MediaMove naming p s (.inserting rows) ((s.insert rows).release p) .idle
  | claim {now : ℕ} {ids : List ℕ} : MediaMove naming p s .idle (s.lease now ids) (.claimed (s.claimed now ids))
  | foreign {items : List ClaimedItem} :
    MediaMove naming p s (.claimed items)
      (s.removeItems (items.filter fun c => (naming.resolve c.reference).isNone))
      (.looking (items.filter fun c => (naming.resolve c.reference).isSome) censusQueries [])
  | look {owned : List ClaimedItem} {query : CensusQuery} {todo : List CensusQuery} {found : List String} :
    MediaMove naming p s (.looking owned (query :: todo) found) s (.looking owned todo (s.look naming owned query found))
  | sortOut {owned : List ClaimedItem} {found : List String} (hnone : (sortOut owned found).toDelete = []) :
    MediaMove naming p s (.looking owned [] found) s (.removing (sortOut owned found))
  | toLock {owned : List ClaimedItem} {found : List String} :
    MediaMove naming p s (.looking owned [] found) s
      (.locking (sortOut owned found) (itemKeys naming (sortOut owned found).toDelete))
  | lock {work : CleanupWork} {key : String} {todo : List String} {locks : Locks ℤ}
      (hlock : s.locks.take p (naming.hashtext key) = some locks) :
    MediaMove naming p s (.locking work (key :: todo)) { s with locks := locks } (.locking work todo)
  | locked {work : CleanupWork} : MediaMove naming p s (.locking work []) s (.rechecking work censusQueries [])
  | recheck {work : CleanupWork} {query : CensusQuery} {todo : List CensusQuery} {found : List String} :
    MediaMove naming p s (.rechecking work (query :: todo) found) s
      (.rechecking work todo (s.look naming work.toDelete query found))
  | intend {work : CleanupWork} {found : List String} :
    MediaMove naming p s (.rechecking work [] found) (s.commitDeletionIntents naming p (work.committed found))
      (.deleting (work.recheck found) (work.committed found) [])
  | again {work : CleanupWork} {item : ClaimedItem} {todo : List ClaimedItem} {done : List String} {key : String}
      (hkey : naming.resolve item.reference = some key) (hdone : key ∈ done) :
    MediaMove naming p s (.deleting work (item :: todo) done) (s.condemn naming p todo)
      (.deleting (work.settle item) todo done)
  | delete {work : CleanupWork} {item : ClaimedItem} {todo : List ClaimedItem} {done : List String} {key : String}
      {outcome : DeleteOutcome} {message : String} (hkey : naming.resolve item.reference = some key) :
    MediaMove naming p s (.deleting work (item :: todo) done)
      (deleteFirst naming p s outcome message work item todo done key).1
      (deleteFirst naming p s outcome message work item todo done key).2
  | tried {work : CleanupWork} {done : List String} :
    MediaMove naming p s (.deleting work [] done) (s.condemn naming p []) (.removing work)
  | remove {work : CleanupWork} : MediaMove naming p s (.removing work) (s.removeItems work.settled) (.deferring work)
  | settle {work : CleanupWork} {now : ℕ} :
    MediaMove naming p s (.deferring work) (s.deferForSettle now work.deferring) (.recording work.failed work.message)
  | record {items : List ClaimedItem} {message : String} {now : ℕ} :
    MediaMove naming p s (.recording items message) (s.recordFailures now message items) .idle
  | fail {x : MediaCall} {items : List ClaimedItem} {message : String} :
    MediaMove naming p s x s (.recording items message)
  | rollback {x : MediaCall} {items : List ClaimedItem} {message : String} :
    MediaMove naming p s x (s.release p) (.recording items message)
  | crash {x : MediaCall} : MediaMove naming p s x ((s.release p).condemn naming p []) .idle

variable {naming : MediaNaming} {p : ℕ} {s w : MediaStore} {x y : MediaCall}

theorem writerNext_move {rows : List MediaRow} {todo : List String}
    (h : writerNext naming p s rows todo = some (w, y)) : MediaMove naming p s (.reserving rows todo) w y := by
  cases todo with
  | nil =>
    have h : (if ((rowKeys naming rows).any fun key => s.intended key) = true then some (s.release p, MediaCall.idle)
      else some (s, .inserting rows)) = some (w, y) := h
    split_ifs at h with hany
    · obtain ⟨rfl, rfl⟩ := Prod.mk.inj (Option.some.inj h)
      exact .refuse
    · obtain ⟨rfl, rfl⟩ := Prod.mk.inj (Option.some.inj h)
      exact .pass fun key hkey => by_contra fun hne =>
        hany (List.any_eq_true.mpr ⟨key, hkey, Bool.eq_true_of_not_eq_false hne⟩)
  | cons key todo =>
    obtain ⟨w', hlock, hpair⟩ := Option.map_eq_some_iff.mp h
    obtain ⟨locks, htake, rfl⟩ := Option.map_eq_some_iff.mp hlock
    obtain ⟨rfl, rfl⟩ := Prod.mk.inj hpair
    exact .reserve htake

theorem mediaNext_move {now : ℕ} (h : mediaNext naming now p s x = some (w, y)) : MediaMove naming p s x w y := by
  cases x with
  | idle => exact nomatch h
  | validating rows todo =>
    cases todo with
    | nil =>
      obtain ⟨rfl, rfl⟩ := Prod.mk.inj (Option.some.inj h)
      exact .begin
    | cons key todo => exact nomatch h
  | reserving rows todo => exact writerNext_move h
  | inserting rows =>
    obtain ⟨rfl, rfl⟩ := Prod.mk.inj (Option.some.inj h)
    exact .insert
  | claimed items =>
    obtain ⟨rfl, rfl⟩ := Prod.mk.inj (Option.some.inj h)
    exact .foreign
  | looking owned todo found =>
    cases todo with
    | nil =>
      obtain ⟨rfl, rfl⟩ := Prod.mk.inj (Option.some.inj h)
      split_ifs with hnone
      · exact .sortOut hnone
      · exact .toLock
    | cons query todo =>
      obtain ⟨rfl, rfl⟩ := Prod.mk.inj (Option.some.inj h)
      exact .look
  | locking work todo =>
    cases todo with
    | nil =>
      obtain ⟨rfl, rfl⟩ := Prod.mk.inj (Option.some.inj h)
      exact .locked
    | cons key todo =>
      obtain ⟨w', hlock, hpair⟩ := Option.map_eq_some_iff.mp h
      obtain ⟨locks, htake, rfl⟩ := Option.map_eq_some_iff.mp hlock
      obtain ⟨rfl, rfl⟩ := Prod.mk.inj hpair
      exact .lock htake
  | rechecking work todo found =>
    cases todo with
    | nil =>
      obtain ⟨rfl, rfl⟩ := Prod.mk.inj (Option.some.inj h)
      exact .intend
    | cons query todo =>
      obtain ⟨rfl, rfl⟩ := Prod.mk.inj (Option.some.inj h)
      exact .recheck
  | deleting work todo done =>
    cases todo with
    | nil =>
      obtain ⟨rfl, rfl⟩ := Prod.mk.inj (Option.some.inj h)
      exact .tried
    | cons item todo =>
      obtain ⟨hany, h⟩ := Option.ite_none_right_eq_some.mp h
      obtain ⟨rfl, rfl⟩ := Prod.mk.inj (Option.some.inj h)
      obtain ⟨key, hkey, hdone⟩ := (Option.any_eq_true _ _).mp hany
      exact .again hkey (List.contains_iff_mem.mp hdone)
  | removing work =>
    obtain ⟨rfl, rfl⟩ := Prod.mk.inj (Option.some.inj h)
    exact .remove
  | deferring work =>
    obtain ⟨rfl, rfl⟩ := Prod.mk.inj (Option.some.inj h)
    exact .settle
  | recording items message =>
    obtain ⟨rfl, rfl⟩ := Prod.mk.inj (Option.some.inj h)
    exact .record

theorem mediaAct_move {a : MediaAction} (h : mediaAct naming p s x a = some (w, y)) : MediaMove naming p s x w y := by
  cases a with
  | write rows =>
    obtain ⟨rfl, h⟩ := Option.ite_none_right_eq_some.mp h
    obtain ⟨rfl, rfl⟩ := Prod.mk.inj (Option.some.inj h)
    exact .write
  | head exist =>
    simp only [mediaAct] at h
    split at h
    · split at h
      · obtain ⟨rfl, rfl⟩ := Prod.mk.inj (Option.some.inj h)
        exact .missing
      · split at h
        · exact nomatch h
        · next hkey =>
          obtain ⟨rfl, rfl⟩ := Prod.mk.inj (Option.some.inj h)
          exact .exist fun hmem => hkey (List.contains_iff_mem.mpr hmem)
    · exact nomatch h
  | claim now ids =>
    obtain ⟨rfl, h⟩ := Option.ite_none_right_eq_some.mp h
    obtain ⟨rfl, rfl⟩ := Prod.mk.inj (Option.some.inj h)
    exact .claim
  | next now => exact mediaNext_move h
  | deleteObject outcome message =>
    have h : mediaDelete naming p s outcome message x = some (w, y) := h
    unfold mediaDelete at h
    split at h
    · obtain ⟨key, hkey, h⟩ := Option.bind_eq_some_iff.mp h
      split at h
      · exact nomatch h
      · obtain ⟨rfl, rfl⟩ := Prod.mk.inj (Option.some.inj h)
        exact .delete hkey
    · exact nomatch h
  | fail message =>
    have h : mediaFail p s message x = some (w, y) := h
    unfold mediaFail at h
    split at h
    · obtain ⟨rfl, rfl⟩ := Prod.mk.inj (Option.some.inj h)
      exact .fail
    · obtain ⟨rfl, rfl⟩ := Prod.mk.inj (Option.some.inj h)
      exact .rollback
    · obtain ⟨rfl, rfl⟩ := Prod.mk.inj (Option.some.inj h)
      exact .rollback
    · obtain ⟨rfl, rfl⟩ := Prod.mk.inj (Option.some.inj h)
      exact .fail
    · obtain ⟨rfl, rfl⟩ := Prod.mk.inj (Option.some.inj h)
      exact .fail
    · exact nomatch h
  | crash =>
    obtain ⟨rfl, rfl⟩ := Prod.mk.inj (Option.some.inj h)
    exact .crash

/-! ### What stays -/

def MediaStore.Referenced (naming : MediaNaming) (s : MediaStore) (key : String) : Prop :=
  (∃ row ∈ s.rows, naming.resolve row.reference = some key) ∨ s.logoKey = some key

def MediaStore.HasItem (naming : MediaNaming) (s : MediaStore) (key : String) : Prop :=
  ∃ i ∈ s.items, naming.resolve i.reference = some key

/-- **What was ever queued is referenced, deleted, or in the queue.** -/
def MediaStore.Covered (naming : MediaNaming) (s : MediaStore) : Prop :=
  ∀ reference ∈ s.queued, ∀ key ∈ naming.resolve reference,
    s.Referenced naming key ∨ key ∈ s.deleted ∨ s.HasItem naming key

/-- Rows and deletions stay, and the id of an item is for one reference. -/
structure Grows (naming : MediaNaming) (s w : MediaStore) : Prop where
  referenced : ∀ key, s.Referenced naming key → w.Referenced naming key
  deleted : ∀ key ∈ s.deleted, key ∈ w.deleted
  nextID : s.nextID ≤ w.nextID
  items : ∀ i ∈ w.items, (∃ j ∈ s.items, j.id = i.id ∧ j.reference = i.reference) ∨ s.nextID ≤ i.id

structure Keeps (naming : MediaNaming) (s w : MediaStore) : Prop extends Grows naming s w where
  old : ∀ i ∈ w.items, ∃ j ∈ s.items, j.id = i.id ∧ j.reference = i.reference

structure Retains (naming : MediaNaming) (s w : MediaStore) : Prop extends Keeps naming s w where
  retained : ∀ i ∈ s.items, ∃ j ∈ w.items, j.reference = i.reference
  queued : w.queued = s.queued

theorem Keeps.of_old (hreferenced : ∀ key, s.Referenced naming key → w.Referenced naming key)
    (hdeleted : ∀ key ∈ s.deleted, key ∈ w.deleted) (hnext : w.nextID = s.nextID)
    (hold : ∀ i ∈ w.items, ∃ j ∈ s.items, j.id = i.id ∧ j.reference = i.reference) : Keeps naming s w :=
  ⟨⟨hreferenced, hdeleted, hnext.ge, fun i hi => .inl (hold i hi)⟩, hold⟩

theorem Retains.refl (naming : MediaNaming) (s : MediaStore) : Retains naming s s :=
  ⟨.of_old (fun _ h => h) (fun _ h => h) rfl fun i hi => ⟨i, hi, rfl, rfl⟩, fun i hi => ⟨i, hi, rfl⟩, rfl⟩

theorem Retains.trans {s' : MediaStore} (h : Retains naming s s') (h' : Retains naming s' w) : Retains naming s w := by
  have hold : ∀ i ∈ w.items, ∃ j ∈ s.items, j.id = i.id ∧ j.reference = i.reference := fun i hi => by
    obtain ⟨j, hj, hid, href⟩ := h'.old i hi
    rw [← hid, ← href]
    exact h.old j hj
  refine ⟨⟨⟨fun key hkey => h'.referenced key (h.referenced key hkey), fun key hkey => h'.deleted key (h.deleted key hkey),
    h.nextID.trans h'.nextID, fun i hi => .inl (hold i hi)⟩, hold⟩, fun i hi => ?_, h'.queued.trans h.queued⟩
  obtain ⟨j, hj, href⟩ := h.retained i hi
  obtain ⟨j', hj', href'⟩ := h'.retained j hj
  exact ⟨j', hj', href'.trans href⟩

theorem Retains.covered (h : Retains naming s w) (hs : s.Covered naming) : w.Covered naming := by
  intro reference hreference key hkey
  rw [h.queued] at hreference
  rcases hs reference hreference key hkey with href | hdel | ⟨i, hi, hkey⟩
  · exact .inl (h.referenced key href)
  · exact .inr (.inl (h.deleted key hdel))
  · obtain ⟨j, hj, href⟩ := h.retained i hi
    exact .inr (.inr ⟨j, hj, by rw [href]; exact hkey⟩)

theorem Retains.of_items (hitems : w.items = s.items) (hnext : w.nextID = s.nextID) (hqueued : w.queued = s.queued)
    (hreferenced : ∀ key, s.Referenced naming key → w.Referenced naming key)
    (hdeleted : ∀ key ∈ s.deleted, key ∈ w.deleted) : Retains naming s w := by
  refine ⟨.of_old hreferenced hdeleted hnext fun i hi => ⟨i, hitems ▸ hi, rfl, rfl⟩, fun i hi => ⟨i, ?_, rfl⟩, hqueued⟩
  rw [hitems]
  exact hi

theorem retains_release (p : ℕ) (s : MediaStore) : Retains naming s (s.release p) :=
  .of_items rfl rfl rfl (fun _ h => h) fun _ h => h

theorem retains_condemn (p : ℕ) (items : List ClaimedItem) (s : MediaStore) :
    Retains naming s (s.condemn naming p items) := .of_items rfl rfl rfl (fun _ h => h) fun _ h => h

theorem retains_insert (rows : List MediaRow) (s : MediaStore) : Retains naming s (s.insert rows) := by
  refine .of_items rfl rfl rfl (fun key h => ?_) fun _ h => h
  rcases h with ⟨row, hrow, hkey⟩ | hlogo
  · exact .inl ⟨row, List.mem_append_right rows hrow, hkey⟩
  · exact .inr hlogo

theorem retains_delete (key : String) (s : MediaStore) : Retains naming s (s.deleteObject key) :=
  .of_items rfl rfl rfl (fun _ h => h) fun _ h => List.mem_cons_of_mem key h

theorem retains_update (ids : List ℕ) {f : CleanupItem → CleanupItem} (hid : ∀ i, (f i).id = i.id)
    (href : ∀ i, (f i).reference = i.reference) (s : MediaStore) : Retains naming s (s.updateItems ids f) := by
  have hone : ∀ i, (if ids.contains i.id then f i else i).id = i.id ∧
      (if ids.contains i.id then f i else i).reference = i.reference := by
    intro i
    split_ifs
    · exact ⟨hid i, href i⟩
    · exact ⟨rfl, rfl⟩
  refine ⟨.of_old (fun _ h => h) (fun _ h => h) rfl fun i hi => ?_, fun i hi => ?_, rfl⟩
  · obtain ⟨j, hj, rfl⟩ := List.mem_map.mp hi
    exact ⟨j, hj, (hone j).1.symm, (hone j).2.symm⟩
  · exact ⟨_, List.mem_map_of_mem hi, (hone i).2⟩

theorem retains_foldl {f : MediaStore → ClaimedItem → MediaStore} (h : ∀ s c, Retains naming s (f s c))
    (items : List ClaimedItem) (s : MediaStore) : Retains naming s (items.foldl f s) := by
  induction items generalizing s with
  | nil => exact .refl naming s
  | cons c items ih => exact (h s c).trans (ih (f s c))

theorem retains_intend (p : ℕ) (items : List ClaimedItem) (s : MediaStore) :
    Retains naming s (s.commitDeletionIntents naming p items) := by
  have hintend : ∀ (s : MediaStore) (c : ClaimedItem), Retains naming s (s.intend naming c) := fun s c => by
    refine retains_update [c.id] ?_ ?_ s <;> exact fun _ => rfl
  have hall := retains_foldl hintend items s
  exact (hall.trans (retains_release p _)).trans (retains_condemn p items _)

theorem retains_record (now : ℕ) (message : String) (items : List ClaimedItem) (s : MediaStore) :
    Retains naming s (s.recordFailures now message items) := by
  refine retains_foldl (fun s c => ?_) items s
  refine retains_update [c.id] ?_ ?_ s <;> exact fun _ => rfl

theorem retains_settle (now : ℕ) (items : List ClaimedItem) (s : MediaStore) :
    Retains naming s (s.deferForSettle now items) := by
  refine retains_update (items.map (·.id)) ?_ ?_ s <;> exact fun _ => rfl

theorem retains_lease (now : ℕ) (ids : List ℕ) (s : MediaStore) : Retains naming s (s.lease now ids) := by
  refine retains_update ((s.claimed now ids).map (·.id)) ?_ ?_ s <;> exact fun _ => rfl

theorem retains_locks (locks : Locks ℤ) (s : MediaStore) : Retains naming s { s with locks := locks } :=
  .of_items rfl rfl rfl (fun _ h => h) fun _ h => h

theorem keeps_remove (items : List ClaimedItem) (s : MediaStore) : Keeps naming s (s.removeItems items) :=
  .of_old (fun _ h => h) (fun _ h => h) rfl fun i hi => ⟨i, (List.mem_filter.mp hi).1, rfl, rfl⟩

theorem retains_deleteFirst {outcome : DeleteOutcome} {message : String} {work : CleanupWork} {item : ClaimedItem}
    {todo : List ClaimedItem} {done : List String} {key : String} :
    Retains naming s (deleteFirst naming p s outcome message work item todo done key).1 := by
  cases outcome with
  | deleted => exact (retains_delete key s).trans (retains_condemn p todo _)
  | failed => exact retains_condemn p todo s
  | unknown => exact (retains_delete key s).trans (retains_condemn p todo _)

/-! ### What a processor knows of its items -/

def Named (s : MediaStore) (c : ClaimedItem) : Prop :=
  c.id < s.nextID ∧ ∀ i ∈ s.items, i.id = c.id → i.reference = c.reference

def Done (naming : MediaNaming) (s : MediaStore) (c : ClaimedItem) : Prop :=
  ∀ key ∈ naming.resolve c.reference, s.Referenced naming key ∨ key ∈ s.deleted

structure WorkOk (naming : MediaNaming) (s : MediaStore) (work : CleanupWork) : Prop where
  settled : ∀ c ∈ work.settled, Named s c ∧ Done naming s c
  toDelete : ∀ c ∈ work.toDelete, Named s c

def FoundOk (naming : MediaNaming) (s : MediaStore) (found : List String) : Prop :=
  ∀ reference ∈ found, ∀ key ∈ naming.resolve reference, s.Referenced naming key

def BooksOk (naming : MediaNaming) (s : MediaStore) (_ : ℕ) : MediaCall → Prop
  | .claimed items => ∀ c ∈ items, Named s c
  | .looking owned _ found => (∀ c ∈ owned, Named s c) ∧ FoundOk naming s found
  | .locking work _ => WorkOk naming s work
  | .rechecking work _ found => WorkOk naming s work ∧ FoundOk naming s found
  | .deleting work todo done =>
    WorkOk naming s work ∧ (∀ c ∈ todo, Named s c) ∧ ∀ key ∈ done, key ∈ s.deleted
  | .removing work => WorkOk naming s work
  | .deferring work => WorkOk naming s work
  | _ => True

/-- The ids are drawn in order, each for one reference. -/
structure BooksInv (naming : MediaNaming) (s : MediaStore) : Prop where
  covered : s.Covered naming
  ids : ∀ i ∈ s.items, i.id < s.nextID
  unique : ∀ i ∈ s.items, ∀ j ∈ s.items, i.id = j.id → i.reference = j.reference

theorem BooksInv.keep (hs : BooksInv naming s) (h : Keeps naming s w) (hcovered : w.Covered naming) :
    BooksInv naming w := by
  refine ⟨hcovered, fun i hi => ?_, fun i hi j hj hid => ?_⟩
  · obtain ⟨j, hj, hid, -⟩ := h.old i hi
    rw [← hid]
    exact Nat.lt_of_lt_of_le (hs.ids j hj) h.nextID
  · obtain ⟨i', hi', hid', href⟩ := h.old i hi
    obtain ⟨j', hj', hjd', href'⟩ := h.old j hj
    rw [← href, ← href']
    exact hs.unique i' hi' j' hj' (hid'.trans (hid.trans hjd'.symm))

section Monotone

variable {c : ClaimedItem}

theorem Grows.named (h : Grows naming s w) (hc : Named s c) : Named w c := by
  refine ⟨Nat.lt_of_lt_of_le hc.1 h.nextID, fun i hi hid => ?_⟩
  rcases h.items i hi with ⟨j, hj, hjid, href⟩ | hnew
  · rw [← href]
    exact hc.2 j hj (hjid.trans hid)
  · exact absurd hc.1 (by omega)

theorem Grows.done (h : Grows naming s w) (hc : Done naming s c) : Done naming w c :=
  fun key hkey => (hc key hkey).imp (h.referenced key) (h.deleted key)

theorem Grows.workOk {work : CleanupWork} (h : Grows naming s w) (hwork : WorkOk naming s work) : WorkOk naming w work :=
  ⟨fun c hc => ⟨h.named (hwork.settled c hc).1, h.done (hwork.settled c hc).2⟩, fun c hc => h.named (hwork.toDelete c hc)⟩

theorem Grows.found {found : List String} (h : Grows naming s w) (hfound : FoundOk naming s found) :
    FoundOk naming w found := fun reference hreference key hkey => h.referenced key (hfound reference hreference key hkey)

theorem Grows.books {q : ℕ} (h : Grows naming s w) (hx : BooksOk naming s q x) : BooksOk naming w q x := by
  cases x with
  | idle | validating | reserving | inserting | recording => trivial
  | claimed items => exact fun c hc => h.named (hx c hc)
  | looking owned todo found => exact ⟨fun c hc => h.named (hx.1 c hc), h.found hx.2⟩
  | locking work todo => exact h.workOk hx
  | rechecking work todo found => exact ⟨h.workOk hx.1, h.found hx.2⟩
  | deleting work todo done =>
    exact ⟨h.workOk hx.1, fun c hc => h.named (hx.2.1 c hc), fun key hkey => h.deleted key (hx.2.2 key hkey)⟩
  | removing work => exact h.workOk hx
  | deferring work => exact h.workOk hx

end Monotone

/-! ### The steps keep the books -/

theorem finds_referenced {reference key : String} {query : CensusQuery} (hfinds : s.finds naming reference query = true)
    (hkey : naming.resolve reference = some key) : s.Referenced naming key := by
  cases query with
  | column c =>
    obtain ⟨row, hrow, hsame⟩ := List.any_eq_true.mp hfinds
    have href : row.reference = reference := of_decide_eq_true (Bool.and_eq_true_iff.mp hsame).2
    exact .inl ⟨row, hrow, by rw [href, hkey]⟩
  | logo => exact .inr ((of_decide_eq_true (Bool.and_eq_true_iff.mp hfinds).2).symm.trans hkey)

theorem look_found {items : List ClaimedItem} {query : CensusQuery} {found : List String} (h : FoundOk naming s found) :
    FoundOk naming s (s.look naming items query found) := by
  intro reference hreference key hkey
  rcases List.mem_append.mp hreference with hold | hnew
  · exact h reference hold key hkey
  · exact finds_referenced (List.mem_filter.mp hnew).2 hkey

theorem named_claimed {now : ℕ} {ids : List ℕ} (hs : BooksInv naming s) : ∀ c ∈ s.claimed now ids, Named s c := by
  intro c hc
  obtain ⟨i, hi, rfl⟩ := List.mem_map.mp hc
  have hi := (List.mem_filter.mp hi).1
  exact ⟨hs.ids i hi, fun j hj hid => hs.unique j hj i hi hid⟩

theorem remove_covered {items : List ClaimedItem} (hs : s.Covered naming)
    (hitems : ∀ c ∈ items, Named s c ∧ Done naming s c) : (s.removeItems items).Covered naming := by
  intro reference hreference key hkey
  rcases hs reference hreference key hkey with href | hdel | ⟨i, hi, hkey⟩
  · exact .inl href
  · exact .inr (.inl hdel)
  · by_cases hremoved : i.id ∈ items.map (·.id)
    · obtain ⟨c, hc, hid⟩ := List.mem_map.mp hremoved
      rw [(hitems c hc).1.2 i hi hid.symm] at hkey
      exact ((hitems c hc).2 key hkey).imp id Or.inl
    · refine .inr (.inr ⟨i, List.mem_filter.mpr ⟨hi, ?_⟩, hkey⟩)
      rw [Bool.not_eq_true', ← Bool.not_eq_true]
      exact fun hmem => hremoved (List.contains_iff_mem.mp hmem)

theorem sortOut_ok {owned : List ClaimedItem} {found : List String} (howned : ∀ c ∈ owned, Named s c)
    (hfound : FoundOk naming s found) : WorkOk naming s (sortOut owned found) := by
  refine ⟨fun c hc => ?_, fun c hc => howned c (List.mem_filter.mp hc).1⟩
  obtain ⟨hc, hmem⟩ := List.mem_filter.mp hc
  exact ⟨howned c hc, fun key hkey => .inl (hfound c.reference (List.contains_iff_mem.mp hmem) key hkey)⟩

theorem recheck_ok {work : CleanupWork} {found : List String} (hwork : WorkOk naming s work)
    (hfound : FoundOk naming s found) : WorkOk naming s (work.recheck found) := by
  refine ⟨fun c hc => ?_, hwork.toDelete⟩
  rcases List.mem_append.mp hc with hc | hc
  · exact hwork.settled c hc
  · obtain ⟨hc, hmem⟩ := List.mem_filter.mp hc
    exact ⟨hwork.toDelete c hc, fun key hkey => .inl (hfound c.reference (List.contains_iff_mem.mp hmem) key hkey)⟩

theorem settle_ok {work : CleanupWork} {item : ClaimedItem} {key : String} (hwork : WorkOk naming s work)
    (hitem : Named s item) (hkey : naming.resolve item.reference = some key) (hdeleted : key ∈ s.deleted) :
    WorkOk naming s (work.settle item) := by
  refine ⟨fun c hc => ?_, hwork.toDelete⟩
  rcases List.mem_append.mp hc with hc | hc
  · exact hwork.settled c hc
  · obtain rfl := List.mem_singleton.mp hc
    refine ⟨hitem, fun key' hkey' => .inr ?_⟩
    rw [Option.mem_def, hkey] at hkey'
    exact Option.some.inj hkey' ▸ hdeleted

/-- **A step keeps the books.** -/
theorem books_move (hs : BooksInv naming s) (hx : BooksOk naming s p x) (h : MediaMove naming p s x w y) :
    Keeps naming s w ∧ w.Covered naming ∧ BooksOk naming w p y := by
  have of_retains : Retains naming s w → BooksOk naming w p y → Keeps naming s w ∧ w.Covered naming ∧ BooksOk naming w p y :=
    fun hr hy => ⟨hr.toKeeps, hr.covered hs.covered, hy⟩
  cases h with
  | write | missing | begin | pass | fail => exact of_retains (.refl naming s) trivial
  | exist => exact of_retains (.refl naming s) trivial
  | reserve => exact of_retains (retains_locks _ s) trivial
  | refuse | rollback => exact of_retains (retains_release p s) trivial
  | insert => exact of_retains ((retains_insert _ s).trans (retains_release p _)) trivial
  | @claim now ids =>
    have hr : Retains naming s _ := retains_lease now ids s
    exact of_retains hr fun c hc => hr.toGrows.named (named_claimed hs c hc)
  | @foreign items =>
    have hk : Keeps naming s _ := keeps_remove (items.filter fun c => (naming.resolve c.reference).isNone) s
    refine ⟨hk, remove_covered hs.covered fun c hc => ?_, fun c hc => hk.toGrows.named (hx c (List.mem_filter.mp hc).1),
      fun _ h => (nomatch h)⟩
    obtain ⟨hc, hnone⟩ := List.mem_filter.mp hc
    refine ⟨hx c hc, fun key hkey => ?_⟩
    rw [Option.mem_def, Option.isNone_iff_eq_none.mp hnone] at hkey
    exact nomatch hkey
  | look => exact of_retains (.refl naming s) ⟨hx.1, look_found hx.2⟩
  | sortOut => exact of_retains (.refl naming s) (sortOut_ok hx.1 hx.2)
  | toLock => exact of_retains (.refl naming s) (sortOut_ok hx.1 hx.2)
  | lock =>
    exact of_retains (retains_locks _ s) ((retains_locks _ s).toGrows.workOk hx)
  | locked => exact of_retains (.refl naming s) ⟨hx, fun _ h => (nomatch h)⟩
  | recheck => exact of_retains (.refl naming s) ⟨hx.1, look_found hx.2⟩
  | @intend work found =>
    have hr : Retains naming s _ := retains_intend p (work.committed found) s
    exact of_retains hr ⟨hr.toGrows.workOk (recheck_ok hx.1 hx.2),
      fun c hc => hr.toGrows.named (hx.1.toDelete c (List.mem_filter.mp hc).1), fun _ h => (nomatch h)⟩
  | @again work item todo done key hkey hdone =>
    have hr : Retains naming s _ := retains_condemn p todo s
    have hwork := settle_ok hx.1 (hx.2.1 item List.mem_cons_self) hkey (hx.2.2 key hdone)
    exact of_retains hr ⟨hr.toGrows.workOk hwork, fun c hc => hr.toGrows.named (hx.2.1 c (List.mem_cons_of_mem item hc)),
      hx.2.2⟩
  | @delete work item todo done key outcome message hkey =>
    have hr : Retains naming s (deleteFirst naming p s outcome message work item todo done key).1 := retains_deleteFirst
    refine of_retains hr ?_
    have htodo : ∀ c ∈ todo, Named _ c := fun c hc => hr.toGrows.named (hx.2.1 c (List.mem_cons_of_mem item hc))
    cases outcome with
    | deleted =>
      have hdeleted : key ∈ (deleteFirst naming p s .deleted message work item todo done key).1.deleted :=
        List.mem_cons_self
      refine ⟨settle_ok (hr.toGrows.workOk hx.1) (hr.toGrows.named (hx.2.1 item List.mem_cons_self)) hkey hdeleted, htodo,
        fun k hk => ?_⟩
      rcases List.mem_cons.mp hk with rfl | hk
      · exact hdeleted
      · exact hr.deleted k (hx.2.2 k hk)
    | failed => exact ⟨hr.toGrows.workOk ⟨hx.1.settled, hx.1.toDelete⟩, htodo, fun k hk => hr.deleted k (hx.2.2 k hk)⟩
    | unknown => exact ⟨hr.toGrows.workOk ⟨hx.1.settled, hx.1.toDelete⟩, htodo, fun k hk => hr.deleted k (hx.2.2 k hk)⟩
  | tried =>
    have hr : Retains naming s _ := retains_condemn p [] s
    exact of_retains hr (hr.toGrows.workOk hx.1)
  | @remove work =>
    have hk : Keeps naming s _ := keeps_remove work.settled s
    exact ⟨hk, remove_covered hs.covered hx.settled, hk.toGrows.workOk hx⟩
  | settle => exact of_retains (retains_settle _ _ s) trivial
  | record => exact of_retains (retains_record _ _ _ s) trivial
  | crash => exact of_retains ((retains_release p s).trans (retains_condemn p [] _)) trivial

theorem grows_enqueue (connectionID reference : String) (s : MediaStore) :
    Grows naming s (s.enqueue connectionID reference) := by
  unfold MediaStore.enqueue
  split
  · exact ⟨fun _ h => h, fun _ h => h, le_rfl, fun i hi => .inl ⟨i, hi, rfl, rfl⟩⟩
  · refine ⟨fun _ h => h, fun _ h => h, Nat.le_succ _, fun i hi => ?_⟩
    rcases List.mem_cons.mp hi with rfl | hi
    · exact .inr le_rfl
    · exact .inl ⟨i, hi, rfl, rfl⟩

theorem books_enqueue (hs : BooksInv naming s) (connectionID reference : String) :
    BooksInv naming (s.enqueue connectionID reference) := by
  unfold MediaStore.enqueue
  split
  · next hexists =>
    refine ⟨fun r hr key hkey => ?_, hs.ids, hs.unique⟩
    rcases List.mem_cons.mp hr with rfl | hr
    · obtain ⟨i, hi, hsame⟩ := List.any_eq_true.mp hexists
      have href : i.reference = r := of_decide_eq_true (Bool.and_eq_true_iff.mp hsame).2
      exact .inr (.inr ⟨i, hi, by rw [href]; exact hkey⟩)
    · exact hs.covered r hr key hkey
  · refine ⟨fun r hr key hkey => ?_, fun i hi => ?_, fun i hi j hj hid => ?_⟩
    · rcases List.mem_cons.mp hr with rfl | hr
      · exact .inr (.inr ⟨_, List.mem_cons_self, hkey⟩)
      · rcases hs.covered r hr key hkey with href | hdel | ⟨i, hi, hkey⟩
        · exact .inl href
        · exact .inr (.inl hdel)
        · exact .inr (.inr ⟨i, List.mem_cons_of_mem _ hi, hkey⟩)
    · rcases List.mem_cons.mp hi with rfl | hi
      · exact Nat.lt_succ_self _
      · exact Nat.lt_succ_of_lt (hs.ids i hi)
    · rcases List.mem_cons.mp hi with rfl | hi
      · rcases List.mem_cons.mp hj with rfl | hj
        · rfl
        · exact absurd (hs.ids j hj) (Nat.not_lt_of_le (Nat.le_of_eq hid))
      · rcases List.mem_cons.mp hj with rfl | hj
        · exact absurd (hs.ids i hi) (Nat.not_lt_of_le (Nat.le_of_eq hid.symm))
        · exact hs.unique i hi j hj hid

theorem books_step (s : Calls MediaStore MediaCall) (a : CallAction MediaAction Enqueued) (s' : Calls MediaStore MediaCall)
    (hs : Holds (BooksInv naming) (BooksOk naming) s) (h : (mediaSystem naming).step s a = some s') :
    Holds (BooksInv naming) (BooksOk naming) s' := by
  refine Machine.holds_step (C := fun _ _ => True) ?_ ?_ s a s' hs trivial h
  · intro s p a w x hs _ h
    obtain ⟨hkeeps, hcovered, hx⟩ := books_move hs.1 (hs.2 p) (mediaAct_move h)
    exact ⟨hs.1.keep hkeeps hcovered, hx, fun q _ => hkeeps.toGrows.books (hs.2 q)⟩
  · intro s e w hs _ h
    obtain rfl := Option.some.inj h
    exact ⟨books_enqueue hs.1 e.connectionID e.reference,
      fun q => (grows_enqueue e.connectionID e.reference s.shared).books (hs.2 q)⟩

/-- **An object that was ever queued is referenced, deleted, or in the queue**, in every state of every run. -/
theorem queued_covered (naming : MediaNaming) (rows : List MediaRow) (logoKey : Option String)
    (as : List (CallAction MediaAction Enqueued)) :
    Always (mediaSystem naming).step (fun s => s.shared.Covered naming) (Calls.start (.start rows logoKey) .idle) as := by
  have hstart : Holds (BooksInv naming) (BooksOk naming) (Calls.start (MediaStore.start rows logoKey) .idle) :=
    holds_start ⟨fun _ h => (nomatch h), fun _ h => (nomatch h), fun _ h => (nomatch h)⟩ fun _ => trivial
  exact (always_of_step (fun s a s' hs h => books_step s a s' hs h) hstart as).mono fun s hs => hs.1.covered

end TeamInbox.Media
