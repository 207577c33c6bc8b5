import TeamInbox.Media.Coverage

/-!
# TeamInbox.Media.Dangling — no row refers to a deleted object

The intent to delete is the item's.  While it stands, writers refuse the key; but the item goes with the object, so a
writer that has looked for the object before finds neither.  The rows of a key are kept from dangling where a writer
that finds no intent has no key that is deleted or about to be, and where the census sees every spelling of the key.
-/

namespace TeamInbox.Media

open TeamInbox.Lib

variable {naming : MediaNaming} {p : ℕ} {s w : MediaStore} {x y : MediaCall}

/-- The object is gone, or a processor is about to delete it. -/
def MediaStore.Condemned (s : MediaStore) (key : String) : Prop := key ∈ s.deleted ∨ ∃ q, (key, q) ∈ s.condemned

def MediaStore.OwnsKey (naming : MediaNaming) (s : MediaStore) (p : ℕ) (key : String) : Prop :=
  s.locks.Owns p (naming.hashtext key)

/-- **No committed row refers to a deleted object.** -/
def MediaStore.NoDangling (naming : MediaNaming) (s : MediaStore) : Prop := ∀ key ∈ s.deleted, ¬ s.Referenced naming key

def GuardInv (naming : MediaNaming) (s : MediaStore) : Prop := ∀ key, s.Condemned key → ¬ s.Referenced naming key

/-! ### The condition -/

/-- Rows that refer to the object do it in the same way. -/
def OneSpelling (naming : MediaNaming) (s : MediaStore) (reference : String) : Prop :=
  ∀ row ∈ s.rows, naming.resolve row.reference = naming.resolve reference → row.reference = reference

/-- A writer that finds no intent has no condemned key; what is committed to deletion is spelled in one way. -/
def Guards (naming : MediaNaming) (s : MediaStore) (x : MediaCall) : Prop :=
  match x with
  | .reserving rows [] =>
    (∀ key ∈ rowKeys naming rows, s.intended key = false) → ∀ key ∈ rowKeys naming rows, ¬ s.Condemned key
  | .rechecking work [] found => ∀ c ∈ work.committed found, OneSpelling naming s c.reference
  | _ => True

def Guarded (naming : MediaNaming) (s : Calls MediaStore MediaCall) (a : CallAction MediaAction Enqueued) : Prop :=
  match a with
  | .act p (.next _) => Guards naming s.shared (s.calls p)
  | _ => True

instance (s : MediaStore) (key : String) : Decidable (s.Condemned key) :=
  decidable_of_iff (key ∈ s.deleted ∨ key ∈ s.condemned.map Prod.fst) <| or_congr_right <| by
    rw [List.mem_map]
    exact ⟨fun ⟨c, hc, hkey⟩ => ⟨c.2, hkey ▸ hc⟩, fun ⟨q, hq⟩ => ⟨(key, q), hq, rfl⟩⟩

instance (naming : MediaNaming) (s : MediaStore) (reference : String) : Decidable (OneSpelling naming s reference) :=
  inferInstanceAs (Decidable (∀ row ∈ s.rows, _))

instance (naming : MediaNaming) (s : MediaStore) (x : MediaCall) : Decidable (Guards naming s x) :=
  match x with
  | .reserving rows [] =>
    inferInstanceAs (Decidable ((∀ key ∈ rowKeys naming rows, s.intended key = false) →
      ∀ key ∈ rowKeys naming rows, ¬ s.Condemned key))
  | .rechecking work [] found =>
    inferInstanceAs (Decidable (∀ c ∈ work.committed found, OneSpelling naming s c.reference))
  | .reserving _ (_ :: _) | .rechecking _ (_ :: _) _ | .idle | .validating _ _ | .inserting _ | .claimed _
  | .looking _ _ _ | .locking _ _ | .deleting _ _ _ | .removing _ | .deferring _ | .recording _ _ => isTrue trivial

instance (naming : MediaNaming) (s : Calls MediaStore MediaCall) (a : CallAction MediaAction Enqueued) :
    Decidable (Guarded naming s a) :=
  match a with
  | .act p (.next _) => inferInstanceAs (Decidable (Guards naming s.shared (s.calls p)))
  | .act _ (.write _) | .act _ (.head _) | .act _ (.claim _ _) | .act _ (.deleteObject _ _) | .act _ (.fail _)
  | .act _ .crash | .env _ => isTrue trivial

/-! ### Assertions -/

theorem mem_ownedMediaKeys {α : Type} {items : List α} {reference : α → String} {key : String} :
    key ∈ ownedMediaKeys naming (items.map reference) ↔ ∃ i ∈ items, naming.resolve (reference i) = some key := by
  unfold ownedMediaKeys
  rw [List.mem_insertionSort, List.mem_dedup, List.mem_filterMap]
  simp only [List.mem_map, exists_exists_and_eq_and]

theorem mem_rowKeys {rows : List MediaRow} {key : String} :
    key ∈ rowKeys naming rows ↔ ∃ row ∈ rows, naming.resolve row.reference = some key := mem_ownedMediaKeys

theorem mem_itemKeys {items : List ClaimedItem} {key : String} :
    key ∈ itemKeys naming items ↔ ∃ c ∈ items, naming.resolve c.reference = some key := mem_ownedMediaKeys

/-- All but the locks in `todo` have been taken. -/
def Locked (naming : MediaNaming) (s : MediaStore) (p : ℕ) (keys todo : List String) : Prop :=
  ∀ key ∈ keys, key ∉ todo → s.OwnsKey naming p key

def AllOurs (naming : MediaNaming) (items : List ClaimedItem) : Prop :=
  ∀ c ∈ items, (naming.resolve c.reference).isSome

/-- The queries that have been made have missed nothing. -/
def Counted (naming : MediaNaming) (s : MediaStore) (items : List ClaimedItem) (todo : List CensusQuery)
    (found : List String) : Prop :=
  ∀ query ∈ censusQueries, query ∉ todo → ∀ c ∈ items, c.reference ∉ found → s.finds naming c.reference query = false

def GuardOk (naming : MediaNaming) (s : MediaStore) (p : ℕ) : MediaCall → Prop
  | .reserving rows todo => Locked naming s p (rowKeys naming rows) todo
  | .inserting rows => ∀ key ∈ rowKeys naming rows, s.OwnsKey naming p key ∧ ¬ s.Condemned key
  | .looking owned _ _ => AllOurs naming owned
  | .locking work todo => AllOurs naming work.toDelete ∧ Locked naming s p (itemKeys naming work.toDelete) todo
  | .rechecking work todo found =>
    AllOurs naming work.toDelete ∧ Locked naming s p (itemKeys naming work.toDelete) [] ∧
      Counted naming s work.toDelete todo found
  | .deleting _ todo _ => ∀ key ∈ itemKeys naming todo, (key, p) ∈ s.condemned
  | _ => True

/-- What a step of `p` leaves to the other calls. -/
structure Benign (naming : MediaNaming) (p : ℕ) (s w : MediaStore) : Prop where
  condemned : ∀ key, w.Condemned key → s.Condemned key ∨ s.OwnsKey naming p key
  rows : ∀ row ∈ w.rows, row ∈ s.rows ∨ ∀ key ∈ naming.resolve row.reference, s.OwnsKey naming p key
  logo : w.logoKey = s.logoKey
  locks : ∀ q k, q ≠ p → s.locks.Owns q k → w.locks.Owns q k
  others : ∀ q key, q ≠ p → (key, q) ∈ s.condemned → (key, q) ∈ w.condemned

structure Calm (naming : MediaNaming) (p : ℕ) (s w : MediaStore) : Prop where
  condemned : ∀ key, w.Condemned key → s.Condemned key
  rows : w.rows = s.rows
  logo : w.logoKey = s.logoKey
  locks : ∀ q k, q ≠ p → s.locks.Owns q k → w.locks.Owns q k
  others : ∀ q key, q ≠ p → (key, q) ∈ s.condemned → (key, q) ∈ w.condemned

theorem Calm.benign (h : Calm naming p s w) : Benign naming p s w :=
  ⟨fun key hkey => .inl (h.condemned key hkey), fun _ hrow => .inl (h.rows ▸ hrow), h.logo, h.locks, h.others⟩

theorem Calm.inv (h : Calm naming p s w) (hs : GuardInv naming s) : GuardInv naming w := by
  intro key hkey href
  refine hs key (h.condemned key hkey) ?_
  unfold MediaStore.Referenced at href ⊢
  rw [h.rows, h.logo] at href
  exact href

theorem Calm.trans {s' : MediaStore} (h : Calm naming p s s') (h' : Calm naming p s' w) : Calm naming p s w :=
  ⟨fun key hkey => h.condemned key (h'.condemned key hkey), h'.rows.trans h.rows, h'.logo.trans h.logo,
    fun q k hq hk => h'.locks q k hq (h.locks q k hq hk), fun q key hq hk => h'.others q key hq (h.others q key hq hk)⟩

theorem calm_refl (naming : MediaNaming) (p : ℕ) (s : MediaStore) : Calm naming p s s :=
  ⟨fun _ h => h, rfl, rfl, fun _ _ _ h => h, fun _ _ _ h => h⟩

theorem calm_items (items : List CleanupItem) : Calm naming p s { s with items := items } :=
  ⟨fun _ h => h, rfl, rfl, fun _ _ _ h => h, fun _ _ _ h => h⟩

theorem calm_release (p : ℕ) (s : MediaStore) : Calm naming p s (s.release p) :=
  ⟨fun _ h => h, rfl, rfl, fun _ _ hq h => (Locks.owns_release hq).mpr h, fun _ _ _ h => h⟩

theorem calm_lock {locks : Locks ℤ} {k : ℤ} (h : s.locks.take p k = some locks) :
    Calm naming p s { s with locks := locks } :=
  ⟨fun _ h => h, rfl, rfl, fun _ _ _ hq => (Locks.owns_take h).mpr (.inl hq), fun _ _ _ h => h⟩

theorem mem_condemn {items : List ClaimedItem} {key : String} {q : ℕ} :
    (key, q) ∈ (s.condemn naming p items).condemned ↔
      (key, q) ∈ s.condemned ∧ q ≠ p ∨ q = p ∧ key ∈ itemKeys naming items := by
  show (key, q) ∈ (s.condemned.filter _) ++ _ ↔ _
  rw [List.mem_append, List.mem_filter, List.mem_map]
  refine or_congr (and_congr_right fun _ => decide_eq_true_iff) ⟨?_, ?_⟩
  · rintro ⟨k, hk, heq⟩
    obtain ⟨rfl, rfl⟩ := Prod.mk.inj heq
    exact ⟨rfl, hk⟩
  · rintro ⟨rfl, hk⟩
    exact ⟨key, hk, rfl⟩

theorem calm_condemn {items : List ClaimedItem} (h : ∀ key ∈ itemKeys naming items, (key, p) ∈ s.condemned) :
    Calm naming p s (s.condemn naming p items) := by
  refine ⟨fun key hkey => ?_, rfl, rfl, fun _ _ _ h => h, fun q key hq hmem => mem_condemn.mpr (.inl ⟨hmem, hq⟩)⟩
  rcases hkey with hdel | ⟨q, hq⟩
  · exact .inl hdel
  · rcases mem_condemn.mp hq with ⟨hq, -⟩ | ⟨-, hkey⟩
    · exact .inr ⟨q, hq⟩
    · exact .inr ⟨p, h key hkey⟩

theorem calm_delete {key : String} (h : s.Condemned key) : Calm naming p s (s.deleteObject key) := by
  refine ⟨fun k hk => ?_, rfl, rfl, fun _ _ _ h => h, fun _ _ _ h => h⟩
  rcases hk with hdel | hcond
  · rcases List.mem_cons.mp hdel with rfl | hdel
    · exact h
    · exact .inl hdel
  · exact .inr hcond

/-! ### Non-interference -/

theorem Benign.locked {q : ℕ} (h : Benign naming p s w) (hq : q ≠ p) {keys todo : List String}
    (hlocked : Locked naming s q keys todo) : Locked naming w q keys todo :=
  fun key hkey hnot => h.locks q _ hq (hlocked key hkey hnot)

theorem Benign.finds {q : ℕ} (h : Benign naming p s w) (hq : q ≠ p) {reference key : String} {query : CensusQuery}
    (hkey : naming.resolve reference = some key) (howns : s.OwnsKey naming q key)
    (hnot : s.finds naming reference query = false) : w.finds naming reference query = false := by
  cases query with
  | logo =>
    simp only [MediaStore.finds] at hnot ⊢
    rw [h.logo]
    exact hnot
  | column c =>
    rw [← Bool.not_eq_true] at hnot ⊢
    intro hfinds
    obtain ⟨row, hrow, hsame⟩ := List.any_eq_true.mp hfinds
    rcases h.rows row hrow with hold | hnew
    · exact hnot (List.any_eq_true.mpr ⟨row, hold, hsame⟩)
    · have href : row.reference = reference := of_decide_eq_true (Bool.and_eq_true_iff.mp hsame).2
      exact hq (howns.unique (hnew key (by rw [href]; exact hkey)))

theorem Benign.guard {q : ℕ} (h : Benign naming p s w) (hq : q ≠ p) (hx : GuardOk naming s q x) :
    GuardOk naming w q x := by
  cases x with
  | idle | validating | claimed | removing | deferring | recording => trivial
  | looking => exact hx
  | reserving rows todo => exact h.locked hq hx
  | inserting rows =>
    intro key hkey
    obtain ⟨howns, hfree⟩ := hx key hkey
    refine ⟨h.locks q _ hq howns, fun hcond => ?_⟩
    rcases h.condemned key hcond with hold | hmine
    · exact hfree hold
    · exact hq (howns.unique hmine)
  | locking work todo => exact ⟨hx.1, h.locked hq hx.2⟩
  | rechecking work todo found =>
    obtain ⟨hours, hlocked, hcounted⟩ := hx
    refine ⟨hours, h.locked hq hlocked, fun query hquery hnot c hc hnew => ?_⟩
    obtain ⟨key, hkey⟩ := Option.isSome_iff_exists.mp (hours c hc)
    exact h.finds hq hkey (hlocked key (mem_itemKeys.mpr ⟨c, hc, hkey⟩) (fun hmem => (nomatch hmem)))
      (hcounted query hquery hnot c hc hnew)
  | deleting work todo done => exact fun key hkey => h.others q key hq (hx key hkey)

/-! ### Steps -/

theorem calm_foldl {f : MediaStore → ClaimedItem → MediaStore} (h : ∀ s c, Calm naming p s (f s c))
    (items : List ClaimedItem) (s : MediaStore) : Calm naming p s (items.foldl f s) := by
  induction items generalizing s with
  | nil => exact calm_refl naming p s
  | cons c items ih => exact (h s c).trans (ih (f s c))

theorem locked_take {locks : Locks ℤ} {key : String} {keys todo : List String}
    (htake : s.locks.take p (naming.hashtext key) = some locks) (h : Locked naming s p keys (key :: todo)) :
    Locked naming { s with locks := locks } p keys todo := by
  intro k hk hnot
  by_cases hkey : k = key
  · exact (Locks.owns_take htake).mpr (.inr ⟨rfl, by rw [hkey]⟩)
  · refine (Locks.owns_take htake).mpr (.inl (h k hk fun hmem => ?_))
    exact (List.mem_cons.mp hmem).elim hkey hnot

theorem locked_start {keys : List String} : Locked naming s p keys keys := fun _ hkey hnot => absurd hkey hnot

theorem counted_look {items : List ClaimedItem} {query : CensusQuery} {todo : List CensusQuery} {found : List String}
    (h : Counted naming s items (query :: todo) found) :
    Counted naming s items todo (s.look naming items query found) := by
  intro q hq hnot c hc hnew
  have hold : c.reference ∉ found := fun hmem => hnew (List.mem_append_left _ hmem)
  by_cases hqq : q = query
  · rw [hqq, ← Bool.not_eq_true]
    intro hfinds
    refine hnew (List.mem_append_right _ (List.mem_filter.mpr ⟨List.mem_map_of_mem hc, hfinds⟩))
  · exact h q hq (fun hmem => (List.mem_cons.mp hmem).elim hqq hnot) c hc hold

theorem mem_censusQueries (query : CensusQuery) : query ∈ censusQueries := by
  cases query with
  | column c => cases c <;> decide
  | logo => decide

theorem unreferenced_of_counted {items : List ClaimedItem} {found : List String} {c : ClaimedItem} {key : String}
    (h : Counted naming s items [] found) (hc : c ∈ items) (hnew : c.reference ∉ found)
    (hkey : naming.resolve c.reference = some key) (hspelling : OneSpelling naming s c.reference) :
    ¬ s.Referenced naming key := by
  rintro (⟨row, hrow, hsame⟩ | hlogo)
  · have href := hspelling row hrow (hsame.trans hkey.symm)
    have hnot := h (.column row.column) (mem_censusQueries _) (fun hmem => (nomatch hmem)) c hc hnew
    rw [← Bool.not_eq_true] at hnot
    exact hnot (List.any_eq_true.mpr ⟨row, hrow, by rw [href, decide_eq_true rfl, decide_eq_true rfl]; rfl⟩)
  · have hnot := h .logo (mem_censusQueries _) (fun hmem => (nomatch hmem)) c hc hnew
    rw [← Bool.not_eq_true] at hnot
    refine hnot (Bool.and_eq_true_iff.mpr ⟨by rw [hlogo]; rfl, decide_eq_true ?_⟩)
    rw [hkey, hlogo]

theorem calm_intend (items : List ClaimedItem) (s : MediaStore) :
    Calm naming p s ((items.foldl (fun s item => s.intend naming item) s).release p) :=
  (calm_foldl (fun _ _ => calm_items _) items s).trans (calm_release p _)

theorem intend_ok {work : CleanupWork} {found : List String} (hs : GuardInv naming s)
    (hx : GuardOk naming s p (.rechecking work [] found))
    (hspelling : ∀ c ∈ work.committed found, OneSpelling naming s c.reference) :
    GuardInv naming (s.commitDeletionIntents naming p (work.committed found)) ∧
      Benign naming p s (s.commitDeletionIntents naming p (work.committed found)) := by
  obtain ⟨-, hlocked, hcounted⟩ := hx
  have hcalm : Calm naming p s (((work.committed found).foldl (fun s item => s.intend naming item) s).release p) :=
    calm_intend (work.committed found) s
  have hnew : ∀ key, (s.commitDeletionIntents naming p (work.committed found)).Condemned key →
      s.Condemned key ∨ key ∈ itemKeys naming (work.committed found) := by
    rintro key (hdel | ⟨q, hq⟩)
    · exact .inl (hcalm.condemned key (.inl hdel))
    · rcases mem_condemn.mp hq with ⟨hq, -⟩ | ⟨-, hkey⟩
      · exact .inl (hcalm.condemned key (.inr ⟨q, hq⟩))
      · exact .inr hkey
  constructor
  · intro key hkey href
    have href : s.Referenced naming key := by
      have hrows := hcalm.rows
      have hlogo := hcalm.logo
      unfold MediaStore.Referenced at href ⊢
      rw [← hrows, ← hlogo]
      exact href
    rcases hnew key hkey with hold | hmine
    · exact hs key hold href
    · obtain ⟨c, hc, hresolve⟩ := mem_itemKeys.mp hmine
      obtain ⟨hmem, hnot⟩ := List.mem_filter.mp hc
      have hnot : c.reference ∉ found := fun hfound => by
        rw [List.contains_iff_mem.mpr hfound] at hnot
        exact nomatch hnot
      exact unreferenced_of_counted hcounted hmem hnot hresolve (hspelling c hc) href
  · refine ⟨fun key hkey => (hnew key hkey).imp id fun hmine => ?_, fun _ hrow => .inl (hcalm.rows ▸ hrow), hcalm.logo,
      hcalm.locks, fun q key hq hmem => mem_condemn.mpr (.inl ⟨hcalm.others q key hq hmem, hq⟩)⟩
    obtain ⟨c, hc, hresolve⟩ := mem_itemKeys.mp hmine
    exact hlocked key (mem_itemKeys.mpr ⟨c, (List.mem_filter.mp hc).1, hresolve⟩) fun hmem => (nomatch hmem)

theorem insert_ok {rows : List MediaRow} (hs : GuardInv naming s) (hx : GuardOk naming s p (.inserting rows)) :
    GuardInv naming ((s.insert rows).release p) ∧ Benign naming p s ((s.insert rows).release p) := by
  constructor
  · rintro key hkey (⟨row, hrow, hresolve⟩ | hlogo)
    · rcases List.mem_append.mp hrow with hnew | hold
      · exact (hx key (mem_rowKeys.mpr ⟨row, hnew, hresolve⟩)).2 hkey
      · exact hs key hkey (.inl ⟨row, hold, hresolve⟩)
    · exact hs key hkey (.inr hlogo)
  · refine ⟨fun _ h => .inl h, fun row hrow => ?_, rfl, fun _ _ hq h => (Locks.owns_release hq).mpr h, fun _ _ _ h => h⟩
    rcases List.mem_append.mp hrow with hnew | hold
    · exact .inr fun key hkey => (hx key (mem_rowKeys.mpr ⟨row, hnew, hkey⟩)).1
    · exact .inl hold

def Admits (naming : MediaNaming) (s : MediaStore) (x y : MediaCall) : Prop :=
  match x, y with
  | .reserving rows [], .inserting _ => ∀ key ∈ rowKeys naming rows, ¬ s.Condemned key
  | .rechecking work [] found, .deleting _ _ _ => ∀ c ∈ work.committed found, OneSpelling naming s c.reference
  | _, _ => True

theorem itemKeys_tail {item : ClaimedItem} {todo : List ClaimedItem} {key : String} (h : key ∈ itemKeys naming todo) :
    key ∈ itemKeys naming (item :: todo) := by
  obtain ⟨c, hc, hkey⟩ := mem_itemKeys.mp h
  exact mem_itemKeys.mpr ⟨c, List.mem_cons_of_mem item hc, hkey⟩

theorem deleting_condemned {todo : List ClaimedItem} :
    ∀ key ∈ itemKeys naming todo, (key, p) ∈ (s.condemn naming p todo).condemned :=
  fun _ hkey => mem_condemn.mpr (.inr ⟨rfl, hkey⟩)

theorem guard_move (hs : GuardInv naming s) (hx : GuardOk naming s p x) (hadmits : Admits naming s x y)
    (h : MediaMove naming p s x w y) : GuardInv naming w ∧ GuardOk naming w p y ∧ Benign naming p s w := by
  have of_calm : Calm naming p s w → GuardOk naming w p y →
      GuardInv naming w ∧ GuardOk naming w p y ∧ Benign naming p s w := fun hc hy => ⟨hc.inv hs, hy, hc.benign⟩
  cases h with
  | write | exist | missing | fail | sortOut => exact of_calm (calm_refl naming p _) trivial
  | begin => exact of_calm (calm_refl naming p _) locked_start
  | reserve htake => exact of_calm (calm_lock htake) (locked_take htake hx)
  | pass hnone =>
    refine of_calm (calm_refl naming p _) fun key hkey => ⟨hx key hkey fun hmem => (nomatch hmem), hadmits key hkey⟩
  | refuse | rollback => exact of_calm (calm_release p s) trivial
  | insert =>
    obtain ⟨hinv, hbenign⟩ := insert_ok hs hx
    exact ⟨hinv, trivial, hbenign⟩
  | claim | remove | settle => exact of_calm (calm_items _) trivial
  | foreign => exact of_calm (calm_items _) fun c hc => (List.mem_filter.mp hc).2
  | look => exact of_calm (calm_refl naming p _) hx
  | toLock => exact of_calm (calm_refl naming p _) ⟨fun c hc => hx c (List.mem_filter.mp hc).1, locked_start⟩
  | lock htake => exact of_calm (calm_lock htake) ⟨hx.1, locked_take htake hx.2⟩
  | locked =>
    exact of_calm (calm_refl naming p _) ⟨hx.1, hx.2, fun query hquery hnot => absurd hquery hnot⟩
  | recheck => exact of_calm (calm_refl naming p _) ⟨hx.1, hx.2.1, counted_look hx.2.2⟩
  | intend =>
    obtain ⟨hinv, hbenign⟩ := intend_ok hs hx hadmits
    exact ⟨hinv, deleting_condemned, hbenign⟩
  | again => exact of_calm (calm_condemn fun key hkey => hx key (itemKeys_tail hkey)) deleting_condemned
  | @delete work item todo done key outcome message hkey =>
    have hfirst : s.Condemned key := .inr ⟨p, hx key (mem_itemKeys.mpr ⟨item, List.mem_cons_self, hkey⟩)⟩
    have htail : ∀ key ∈ itemKeys naming todo, (key, p) ∈ s.condemned := fun key hkey => hx key (itemKeys_tail hkey)
    have hdelete : Calm naming p s ((s.deleteObject key).condemn naming p todo) :=
      (calm_delete hfirst).trans (calm_condemn htail)
    cases outcome with
    | deleted => exact of_calm hdelete deleting_condemned
    | failed => exact of_calm (calm_condemn htail) deleting_condemned
    | unknown => exact of_calm hdelete deleting_condemned
  | tried => exact of_calm (calm_condemn fun _ hkey => (nomatch hkey)) trivial
  | record => exact of_calm (calm_foldl (fun _ _ => calm_items _) _ s) trivial
  | crash => exact of_calm ((calm_release p s).trans (calm_condemn fun _ hkey => (nomatch hkey))) trivial

theorem admits_of_act {a : MediaAction} (hguards : ∀ now, a = .next now → Guards naming s x)
    (h : mediaAct naming p s x a = some (w, y)) : Admits naming s x y := by
  cases a with
  | next now =>
    have hmove := mediaNext_move h
    unfold Admits
    split
    · cases hmove with
      | pass hnone => exact hguards now rfl hnone
    · exact hguards now rfl
    · trivial
  | write rows =>
    obtain ⟨rfl, -⟩ := Option.ite_none_right_eq_some.mp h
    trivial
  | claim now ids =>
    obtain ⟨rfl, -⟩ := Option.ite_none_right_eq_some.mp h
    trivial
  | head exist =>
    simp only [mediaAct] at h
    split at h
    · trivial
    · cases h
  | deleteObject outcome message =>
    have h : mediaDelete naming p s outcome message x = some (w, y) := h
    unfold mediaDelete at h
    split at h
    · trivial
    · cases h
  | fail message =>
    have h : mediaFail p s message x = some (w, y) := h
    unfold mediaFail at h
    unfold Admits
    split
    · cases h
    · cases h
    · trivial
  | crash =>
    obtain ⟨rfl, rfl⟩ := Prod.mk.inj (Option.some.inj h)
    unfold Admits
    split
    · contradiction
    · contradiction
    · trivial

theorem guard_step (s : Calls MediaStore MediaCall) (a : CallAction MediaAction Enqueued) (s' : Calls MediaStore MediaCall)
    (hs : Holds (GuardInv naming) (GuardOk naming) s) (hguarded : Guarded naming s a)
    (h : (mediaSystem naming).step s a = some s') : Holds (GuardInv naming) (GuardOk naming) s' := by
  refine Machine.holds_step (C := Guarded naming) ?_ ?_ s a s' hs hguarded h
  · intro s p a w x hs hguarded h
    have hadmits : Admits naming s.shared (s.calls p) x := admits_of_act (fun now hnow => by rw [hnow] at hguarded; exact hguarded) h
    obtain ⟨hinv, hx, hbenign⟩ := guard_move hs.1 (hs.2 p) hadmits (mediaAct_move h)
    exact ⟨hinv, hx, fun q hq => hbenign.guard hq (hs.2 q)⟩
  · intro s e w hs _ h
    obtain rfl := Option.some.inj h
    have hcalm : ∀ p, Calm naming p s.shared (s.shared.enqueue e.connectionID e.reference) := fun p => by
      unfold MediaStore.enqueue
      split <;> exact ⟨fun _ h => h, rfl, rfl, fun _ _ _ h => h, fun _ _ _ h => h⟩
    exact ⟨(hcalm 0).inv hs.1, fun q => (hcalm (q + 1)).benign.guard (Nat.ne_of_lt q.lt_succ_self) (hs.2 q)⟩

theorem guardInv_noDangling (hs : GuardInv naming s) : s.NoDangling naming := fun key hkey => hs key (.inl hkey)

/-- **An object that was ever queued is never forgotten, and no row refers to a deleted one** as long as writers that
find no intent have no key that is deleted or about to be, and what is committed to deletion is spelled in one way. -/
theorem no_stored_message_dangles (naming : MediaNaming) (rows : List MediaRow) (logoKey : Option String)
    (as : List (CallAction MediaAction Enqueued)) :
    let start := Calls.start (MediaStore.start rows logoKey) MediaCall.idle
    Always (mediaSystem naming).step (fun s => s.shared.Covered naming) start as ∧
      (Meets (mediaSystem naming).step (Guarded naming) start as →
        Always (mediaSystem naming).step (fun s => s.shared.NoDangling naming) start as) := by
  intro start
  refine ⟨queued_covered naming rows logoKey as, fun hmeets => ?_⟩
  have hstart : Holds (GuardInv naming) (GuardOk naming) start :=
    holds_start (fun key hkey => by rcases hkey with hdel | ⟨q, hq⟩ <;> contradiction) fun _ => trivial
  exact (always_of_meets (fun s a s' hs hC h => guard_step s a s' hs hC h) hstart hmeets).mono fun s hs =>
    guardInv_noDangling hs.1

/-! ### A writer that comes back late -/

def picture : MediaRow := ⟨.messageMedia, "s3://media/media/company/1_a.jpg"⟩

def pictureNaming : MediaNaming where
  resolve reference := if reference = picture.reference then some "media/company/1_a.jpg" else none
  hashtext _ := 0

/-- A pass of processor 1 that finds no reference. -/
def firstLook : List (CallAction MediaAction Enqueued) :=
  .act 1 (.claim 0 [0]) :: List.replicate 12 (.act 1 (.next 0))

def secondLook : List (CallAction MediaAction Enqueued) :=
  .act 1 (.claim 60000 [0]) :: List.replicate 19 (.act 1 (.next 60000)) ++
    [.act 1 (.deleteObject .deleted ""), .act 1 (.next 60000), .act 1 (.next 60000)]

def lateWriter : List (CallAction MediaAction Enqueued) :=
  [.env ⟨"connection", picture.reference⟩, .act 0 (.write [picture]), .act 0 (.head true)] ++ firstLook ++ secondLook ++
    List.replicate 4 (.act 0 (.next 60000))

/-- One writer is done before the first look, another comes after the item has gone. -/
def punctualWriters : List (CallAction MediaAction Enqueued) :=
  [.act 0 (.write [⟨.messageMedia, "remote-picture"⟩]), .act 0 (.next 0), .act 0 (.next 0), .act 0 (.next 0),
    .env ⟨"connection", picture.reference⟩] ++ firstLook ++ secondLook ++ [.act 2 (.write [picture]), .act 2 (.head false)]

theorem punctual_writers_keep_media :
    Always (mediaSystem pictureNaming).step (fun s => s.shared.NoDangling pictureNaming)
      (Calls.start (.start [] none) .idle) punctualWriters :=
  (no_stored_message_dangles pictureNaming [] none punctualWriters).2 (meets_of_check (by decide +kernel))

theorem late_writer_dangles :
    ¬ Always (mediaSystem pictureNaming).step (fun s => s.shared.NoDangling pictureNaming)
      (Calls.start (.start [] none) .idle) lateWriter := by
  intro halways
  have hrun : (runActions (mediaSystem pictureNaming).step (Calls.start (.start [] none) .idle) lateWriter).map
      (fun s => (s.shared.deleted, s.shared.rows)) = some (["media/company/1_a.jpg"], [picture]) := by decide +kernel
  obtain ⟨s, hrun, hstate⟩ := Option.map_eq_some_iff.mp hrun
  obtain ⟨hdeleted, hrows⟩ := Prod.mk.inj hstate
  have hlast := always_iff_reached.mp halways lateWriter [] s (List.append_nil _).symm hrun
  refine hlast "media/company/1_a.jpg" (by rw [hdeleted]; exact List.mem_singleton_self _) (.inl ⟨picture, ?_, by decide⟩)
  rw [hrows]
  exact List.mem_singleton_self picture

end TeamInbox.Media
