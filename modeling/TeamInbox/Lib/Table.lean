import Mathlib.Data.List.AList

/-!
# TeamInbox.Lib.Table — keyed tables and guarded statements

A table maps keys to rows and holds every key at most once (`AList` carries that invariant).  The
three statement forms of a keyed SQL table are the guarded update of one row (`updateWhere`), the
guarded delete of one row (`deleteWhere`) and the guarded update of every row (`updateAll`); the
first two report whether a row was affected.  The lemmas describe a statement by what `find?`
returns afterwards, so proofs about statements never look at the underlying list.
-/

namespace TeamInbox.Lib

/-- A finite table with at most one row per key. -/
structure Table (κ α : Type) where
  /-- The rows, keyed; `AList` carries the proof that no key repeats. -/
  rows : AList (fun _ : κ => α)

namespace Table

variable {κ α : Type}

/-- The table without rows. -/
def empty : Table κ α := ⟨∅⟩

instance : Inhabited (Table κ α) := ⟨empty⟩

/-- The stored keys. -/
def keys (t : Table κ α) : List κ := t.rows.keys

/-- The number of rows. -/
def size (t : Table κ α) : ℕ := t.keys.length

variable [DecidableEq κ]

/-- The row stored under `k`. -/
def find? (t : Table κ α) (k : κ) : Option α := t.rows.lookup k

/-- Store `v` under `k`, replacing the row that was there. -/
def put (t : Table κ α) (k : κ) (v : α) : Table κ α := ⟨t.rows.insert k v⟩

/-- Delete the row under `k`. -/
def erase (t : Table κ α) (k : κ) : Table κ α := ⟨t.rows.erase k⟩

@[simp] theorem find?_empty (k : κ) : (empty : Table κ α).find? k = none := rfl

theorem find?_put (t : Table κ α) (k k' : κ) (v : α) :
    (t.put k v).find? k' = if k' = k then some v else t.find? k' := by
  by_cases h : k' = k
  · subst h
    simp [find?, put]
  · rw [if_neg h]
    exact AList.lookup_insert_ne h

@[simp] theorem find?_put_self (t : Table κ α) (k : κ) (v : α) : (t.put k v).find? k = some v := by
  simp [find?_put]

theorem find?_put_ne (t : Table κ α) {k k' : κ} (v : α) (h : k' ≠ k) :
    (t.put k v).find? k' = t.find? k' := by
  simp [find?_put, h]

@[simp] theorem put_put (t : Table κ α) (k : κ) (v w : α) : (t.put k v).put k w = t.put k w := by
  unfold put
  rw [AList.insert_insert]

theorem find?_erase (t : Table κ α) (k k' : κ) :
    (t.erase k).find? k' = if k' = k then none else t.find? k' := by
  by_cases h : k' = k
  · subst h
    simp [find?, erase]
  · rw [if_neg h]
    exact AList.lookup_erase_ne h

@[simp] theorem find?_erase_self (t : Table κ α) (k : κ) : (t.erase k).find? k = none := by
  simp [find?_erase]

theorem find?_erase_ne (t : Table κ α) {k k' : κ} (h : k' ≠ k) :
    (t.erase k).find? k' = t.find? k' := by
  simp [find?_erase, h]

theorem find?_foldl_erase (l : List κ) (t : Table κ α) (k : κ) :
    (l.foldl erase t).find? k = if k ∈ l then none else t.find? k := by
  induction l generalizing t with
  | nil => rfl
  | cons a l ih =>
    rw [List.foldl_cons, ih]
    by_cases hk : k ∈ l
    · rw [if_pos hk, if_pos (List.mem_cons_of_mem a hk)]
    · rw [if_neg hk, find?_erase]
      by_cases ha : k = a
      · rw [if_pos ha, if_pos (ha ▸ List.mem_cons_self)]
      · rw [if_neg ha, if_neg fun h => (List.mem_cons.mp h).elim ha hk]

theorem mem_keys {t : Table κ α} {k : κ} : k ∈ t.keys ↔ (t.find? k).isSome := by
  rw [find?, AList.lookup_isSome]
  exact AList.mem_keys.symm

/-- The rows with their keys. -/
def entries (t : Table κ α) : List (κ × α) :=
  t.keys.filterMap fun k => (t.find? k).map fun v => (k, v)

theorem mem_entries {t : Table κ α} {k : κ} {v : α} :
    (k, v) ∈ t.entries ↔ t.find? k = some v := by
  simp only [entries, List.mem_filterMap, Option.map_eq_some_iff, Prod.mk.injEq]
  constructor
  · rintro ⟨k', -, v', h, rfl, rfl⟩
    exact h
  · intro h
    exact ⟨k, mem_keys.mpr (by simp [h]), v, h, rfl, rfl⟩

/-! ### Size -/

theorem size_put_of_some {t : Table κ α} {k : κ} {w : α} (v : α) (h : t.find? k = some w) :
    (t.put k v).size = t.size := by
  have hk : k ∈ t.keys := mem_keys.mpr (by simp [h])
  have hpos : 0 < t.keys.length := List.length_pos_of_mem hk
  have he : (t.put k v).keys = k :: t.keys.erase k := AList.keys_insert t.rows
  rw [size, he, List.length_cons, List.length_erase_of_mem hk, size]
  omega

theorem size_put_of_none {t : Table κ α} {k : κ} (v : α) (h : t.find? k = none) :
    (t.put k v).size = t.size + 1 := by
  have hk : k ∉ t.keys := fun hk => by simpa [h] using mem_keys.mp hk
  have he : (t.put k v).keys = k :: t.keys.erase k := AList.keys_insert t.rows
  rw [size, he, List.length_cons, List.erase_of_not_mem hk, size]

theorem size_erase_of_some {t : Table κ α} {k : κ} {w : α} (h : t.find? k = some w) :
    (t.erase k).size + 1 = t.size := by
  have hk : k ∈ t.keys := mem_keys.mpr (by simp [h])
  have hpos : 0 < t.keys.length := List.length_pos_of_mem hk
  have he : (t.erase k).keys = t.keys.erase k := AList.keys_erase k t.rows
  rw [size, he, List.length_erase_of_mem hk, size]
  omega

theorem size_erase_le (t : Table κ α) (k : κ) : (t.erase k).size ≤ t.size := by
  have he : (t.erase k).keys = t.keys.erase k := AList.keys_erase k t.rows
  rw [size, he, size]
  exact List.length_erase_le

theorem size_put_le (t : Table κ α) (k : κ) (v : α) : (t.put k v).size ≤ t.size + 1 := by
  cases h : t.find? k with
  | none => exact Nat.le_of_eq (size_put_of_none v h)
  | some w => rw [size_put_of_some v h]; omega

/-- A table whose keys all stand in `l` has at most `l.length` rows. -/
theorem size_le_of_keys {t : Table κ α} {l : List κ} (h : ∀ k v, t.find? k = some v → k ∈ l) :
    t.size ≤ l.length := by
  have hsub : t.keys ⊆ l := by
    intro k hk
    obtain ⟨v, hv⟩ := Option.isSome_iff_exists.mp (mem_keys.mp hk)
    exact h k v hv
  have hnodup : t.keys.Nodup := t.rows.keys_nodup
  exact (List.subperm_of_subset hnodup hsub).length_le

/-! ### Statements -/

/-- `UPDATE … SET f WHERE key = k AND p`; the flag says whether the row was affected. -/
def updateWhere (t : Table κ α) (k : κ) (p : α → Prop) [DecidablePred p] (f : α → α) :
    Table κ α × Bool :=
  match t.find? k with
  | none => (t, false)
  | some r => if p r then (t.put k (f r), true) else (t, false)

/-- `DELETE … WHERE key = k AND p`; the flag says whether the row was affected. -/
def deleteWhere (t : Table κ α) (k : κ) (p : α → Prop) [DecidablePred p] : Table κ α × Bool :=
  match t.find? k with
  | none => (t, false)
  | some r => if p r then (t.erase k, true) else (t, false)

/-- `UPDATE … SET f WHERE p` over every row. -/
def updateAll (t : Table κ α) (p : κ → α → Prop) [∀ k, DecidablePred (p k)] (f : α → α) :
    Table κ α :=
  t.keys.foldl (fun u k => (u.updateWhere k (p k) f).1) t

section Statements

variable {p : α → Prop} [DecidablePred p]

theorem find?_updateWhere (t : Table κ α) (k k' : κ) (f : α → α) :
    (t.updateWhere k p f).1.find? k' =
      if k' = k then (t.find? k).map (fun r => if p r then f r else r) else t.find? k' := by
  unfold updateWhere
  cases h : t.find? k with
  | none => by_cases hk : k' = k <;> simp [hk, h]
  | some r =>
    by_cases hp : p r <;> by_cases hk : k' = k <;> simp [hp, hk, h, find?_put]

theorem find?_updateWhere_self (t : Table κ α) (k : κ) (f : α → α) :
    (t.updateWhere k p f).1.find? k = (t.find? k).map (fun r => if p r then f r else r) := by
  simp [find?_updateWhere]

theorem find?_updateWhere_ne (t : Table κ α) {k k' : κ} (f : α → α) (h : k' ≠ k) :
    (t.updateWhere k p f).1.find? k' = t.find? k' := by
  simp [find?_updateWhere, h]

theorem updateWhere_of_not (t : Table κ α) {k : κ} {f : α → α}
    (h : ∀ r, t.find? k = some r → ¬ p r) : t.updateWhere k p f = (t, false) := by
  unfold updateWhere
  cases hr : t.find? k with
  | none => rfl
  | some r => simp [h r hr]

theorem updateWhere_of_pos {t : Table κ α} {k : κ} {r : α} {f : α → α} (hr : t.find? k = some r)
    (hp : p r) : t.updateWhere k p f = (t.put k (f r), true) := by
  simp [updateWhere, hr, hp]

theorem updateWhere_snd_iff {t : Table κ α} {k : κ} {f : α → α} :
    (t.updateWhere k p f).2 = true ↔ ∃ r, t.find? k = some r ∧ p r := by
  unfold updateWhere
  cases hr : t.find? k with
  | none => simp
  | some r => by_cases hp : p r <;> simp [hp]

theorem find?_deleteWhere (t : Table κ α) (k k' : κ) :
    (t.deleteWhere k p).1.find? k' =
      if k' = k then (t.find? k).filter (fun r => ¬ p r) else t.find? k' := by
  unfold deleteWhere
  cases h : t.find? k with
  | none => by_cases hk : k' = k <;> simp [hk, h]
  | some r =>
    by_cases hp : p r <;> by_cases hk : k' = k <;>
      simp [hp, hk, h, find?_erase, Option.filter]

theorem deleteWhere_of_pos {t : Table κ α} {k : κ} {r : α} (hr : t.find? k = some r) (hp : p r) :
    t.deleteWhere k p = (t.erase k, true) := by
  simp [deleteWhere, hr, hp]

theorem find?_updateAll {p : κ → α → Prop} [∀ k, DecidablePred (p k)] (t : Table κ α) (f : α → α)
    (k : κ) : (t.updateAll p f).find? k = (t.find? k).map (fun r => if p k r then f r else r) := by
  have hfold : ∀ (l : List κ) (u : Table κ α), l.Nodup →
      (l.foldl (fun u k => (u.updateWhere k (p k) f).1) u).find? k =
        if k ∈ l then (u.find? k).map (fun r => if p k r then f r else r) else u.find? k := by
    intro l
    induction l with
    | nil => intro u _; rfl
    | cons x l ih =>
      intro u hl
      obtain ⟨hx, hl⟩ := List.nodup_cons.mp hl
      rw [List.foldl_cons, ih _ hl]
      by_cases hk : k = x
      · subst hk
        rw [if_neg hx, if_pos List.mem_cons_self, find?_updateWhere_self]
      · rw [find?_updateWhere_ne _ f hk]
        simp [hk]
  unfold updateAll
  rw [hfold t.keys t t.rows.keys_nodup]
  by_cases hk : k ∈ t.keys
  · rw [if_pos hk]
  · rw [if_neg hk]
    have hnone : t.find? k = none := by
      rw [← Option.not_isSome_iff_eq_none, ← mem_keys]
      exact hk
    rw [hnone]
    rfl

end Statements

end Table

end TeamInbox.Lib
