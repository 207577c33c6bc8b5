import Mathlib.Data.List.Basic

/-!
# TeamInbox.Lib.Versions — tables under read committed

A row has the version that is committed and, while a transaction that has written it runs, the version this will
commit.  A transaction sees its own versions and otherwise what is committed; it waits to write a row that another
has written.  Rows keep their place: `t[i]?` is row `i`, and an insert that was rolled back leaves it without versions.

`Admits k` is a partial unique index with one key: in whichever way the transactions end, at most one row is `k`.
-/

namespace TeamInbox.Lib

variable {ρ : Type}

structure Versioned (ρ : Type) where
  committed : Option ρ
  /-- the transaction that has written the row, and what it will commit -/
  pending : Option (ℕ × ρ)
  deriving DecidableEq

abbrev Rows (ρ : Type) := List (Versioned ρ)

namespace Versioned

/-- The version transaction `p` sees. -/
def seenBy (p : ℕ) (r : Versioned ρ) : Option ρ :=
  match r.pending with
  | some (q, x) => if q = p then some x else r.committed
  | none => r.committed

/-- Nobody but `p` has written the row. -/
def free (p : ℕ) (r : Versioned ρ) : Bool := r.pending.all fun w => decide (w.1 = p)

def write (p : ℕ) (x : ρ) (r : Versioned ρ) : Versioned ρ := { r with pending := some (p, x) }

def commit (p : ℕ) (r : Versioned ρ) : Versioned ρ :=
  match r.pending with
  | some (q, x) => if q = p then ⟨some x, none⟩ else r
  | none => r

def rollback (p : ℕ) (r : Versioned ρ) : Versioned ρ :=
  match r.pending with
  | some (q, _) => if q = p then ⟨r.committed, none⟩ else r
  | none => r

/-- What an update makes of a row it matches. -/
def rewrite (p : ℕ) (m : ρ → Bool) (f : ρ → ρ) (r : Versioned ρ) : Versioned ρ :=
  match r.seenBy p with
  | some x => if m x then r.write p (f x) else r
  | none => r

variable {p q : ℕ} {r r' : Versioned ρ} {x : ρ}

theorem seenBy_of_pending (h : r.pending = some (p, x)) : r.seenBy p = some x := by
  simp [seenBy, h]

theorem seenBy_of_ne (h : ∀ x, r.pending ≠ some (p, x)) : r.seenBy p = r.committed := by
  cases hp : r.pending with
  | none => simp [seenBy, hp]
  | some w =>
    have hne : w.1 ≠ p := by
      rintro rfl
      exact h w.2 hp
    simp [seenBy, hp, hne]

theorem free_iff : r.free p = true ↔ ∀ q x, r.pending = some (q, x) → q = p := by
  cases hp : r.pending with
  | none => simp [free, hp]
  | some w =>
    simp only [free, hp, Option.all_some, decide_eq_true_eq, Option.some.injEq]
    constructor
    · rintro rfl q x heq
      rw [heq]
    · exact fun h => h w.1 w.2 rfl

theorem free_of_pending (h : r.pending = some (p, x)) : r.free p = true := by
  simp [free, h]

/-- A row that another transaction has written is, for this one, as it is committed. -/
theorem seenBy_of_free (h : r.free q = true) (hne : p ≠ q) : r.seenBy p = r.committed :=
  seenBy_of_ne fun x hx => hne (free_iff.mp h p x hx)

theorem commit_of_pending (h : r.pending = some (p, x)) : r.commit p = ⟨some x, none⟩ := by
  simp [commit, h]

theorem commit_of_ne (h : ∀ x, r.pending ≠ some (p, x)) : r.commit p = r := by
  cases hp : r.pending with
  | none => simp [commit, hp]
  | some w =>
    have hne : w.1 ≠ p := by
      rintro rfl
      exact h w.2 hp
    simp [commit, hp, hne]

theorem rollback_of_pending (h : r.pending = some (p, x)) : r.rollback p = ⟨r.committed, none⟩ := by
  simp [rollback, h]

theorem rollback_of_ne (h : ∀ x, r.pending ≠ some (p, x)) : r.rollback p = r := by
  cases hp : r.pending with
  | none => simp [rollback, hp]
  | some w =>
    have hne : w.1 ≠ p := by
      rintro rfl
      exact h w.2 hp
    simp [rollback, hp, hne]

theorem pending_cases (p : ℕ) (r : Versioned ρ) : (∃ x, r.pending = some (p, x)) ∨ ∀ x, r.pending ≠ some (p, x) := by
  by_cases h : ∃ x, r.pending = some (p, x)
  · exact .inl h
  · exact .inr fun x hx => h ⟨x, hx⟩

theorem commit_ended : (r.commit p).pending ≠ some (p, x) := by
  rcases pending_cases p r with ⟨y, hy⟩ | hne
  · simp [commit_of_pending hy]
  · rw [commit_of_ne hne]
    exact hne x

theorem rollback_ended : (r.rollback p).pending ≠ some (p, x) := by
  rcases pending_cases p r with ⟨y, hy⟩ | hne
  · simp [rollback_of_pending hy]
  · rw [rollback_of_ne hne]
    exact hne x

/-- The commit of another transaction keeps what it does not write. -/
theorem pending_commit (h : (r.commit p).pending = some (q, x)) : q ≠ p ∧ r.commit p = r := by
  refine ⟨?_, ?_⟩
  · rintro rfl
    exact commit_ended h
  · rcases pending_cases p r with ⟨y, hy⟩ | hne
    · simp [commit_of_pending hy] at h
    · exact commit_of_ne hne

theorem pending_rollback (h : (r.rollback p).pending = some (q, x)) : q ≠ p ∧ r.rollback p = r := by
  refine ⟨?_, ?_⟩
  · rintro rfl
    exact rollback_ended h
  · rcases pending_cases p r with ⟨y, hy⟩ | hne
    · simp [rollback_of_pending hy] at h
    · exact rollback_of_ne hne

theorem seenBy_rollback (hq : q ≠ p) : (r.rollback p).seenBy q = r.seenBy q := by
  rcases pending_cases p r with ⟨y, hy⟩ | hne
  · rw [rollback_of_pending hy, seenBy_of_free (free_of_pending hy) hq]
    rfl
  · rw [rollback_of_ne hne]

/-- The commit makes what the transaction sees what everybody sees. -/
theorem committed_commit : (r.commit p).committed = r.seenBy p := by
  rcases pending_cases p r with ⟨x, hx⟩ | hne
  · rw [commit_of_pending hx, seenBy_of_pending hx]
  · rw [commit_of_ne hne, seenBy_of_ne hne]

theorem rewrite_cases {m : ρ → Bool} {f : ρ → ρ} :
    (∃ x, r.seenBy p = some x ∧ m x = true ∧ r.rewrite p m f = r.write p (f x)) ∨
      r.rewrite p m f = r ∧ ∀ x, r.seenBy p = some x → m x = false := by
  unfold rewrite
  cases hx : r.seenBy p with
  | none => exact .inr ⟨rfl, fun x h => by cases h⟩
  | some x =>
    by_cases hm : m x = true
    · exact .inl ⟨x, rfl, hm, if_pos hm⟩
    · exact .inr ⟨if_neg hm, fun y hy => by simpa [← Option.some.inj hy] using hm⟩

/-! ### Unique indexes -/

def isNow (k : ρ → Bool) (r : Versioned ρ) : Bool := r.committed.any k

def willBe (k : ρ → Bool) (r : Versioned ρ) : Bool := r.pending.any fun w => k w.2

def owner (r : Versioned ρ) : Option ℕ := r.pending.map Prod.fst

/-- The rows are not both `k` in the end. -/
def Compatible (k : ρ → Bool) (r r' : Versioned ρ) : Prop :=
  ¬ (r.isNow k = true ∧ r'.isNow k = true) ∧ ¬ (r.willBe k = true ∧ r'.willBe k = true) ∧
    (r.isNow k = true → r'.willBe k = true → r.owner = r'.owner) ∧
      (r.willBe k = true → r'.isNow k = true → r.owner = r'.owner)

instance (k : ρ → Bool) (r r' : Versioned ρ) : Decidable (Compatible k r r') := inferInstanceAs (Decidable (_ ∧ _))

variable {k : ρ → Bool}

theorem Compatible.symm (h : Compatible k r r') : Compatible k r' r :=
  ⟨fun hb => h.1 hb.symm, fun hb => h.2.1 hb.symm, fun hn hw => (h.2.2.2 hw hn).symm, fun hw hn => (h.2.2.1 hn hw).symm⟩

theorem owner_of_pending (h : r.pending = some (p, x)) : r.owner = some p := by
  simp [owner, h]

theorem willBe_of_pending (h : r.pending = some (p, x)) : r.willBe k = k x := by
  simp [willBe, h]

theorem pending_of_owner (h : r.owner = some p) : ∃ x, r.pending = some (p, x) := by
  obtain ⟨w, hw, rfl⟩ := Option.map_eq_some_iff.mp h
  exact ⟨w.2, hw⟩

theorem Compatible.not_both (h : Compatible k r r') (hr : (r.seenBy p).any k = true)
    (hr' : (r'.seenBy p).any k = true) : False := by
  rcases pending_cases p r with ⟨x, hx⟩ | hne <;> rcases pending_cases p r' with ⟨x', hx'⟩ | hne'
  · rw [seenBy_of_pending hx] at hr
    rw [seenBy_of_pending hx'] at hr'
    exact h.2.1 ⟨(willBe_of_pending hx).trans hr, (willBe_of_pending hx').trans hr'⟩
  · rw [seenBy_of_pending hx] at hr
    rw [seenBy_of_ne hne'] at hr'
    have howner := h.2.2.2 ((willBe_of_pending hx).trans hr) hr'
    rw [owner_of_pending hx] at howner
    obtain ⟨y, hy⟩ := pending_of_owner howner.symm
    exact hne' y hy
  · rw [seenBy_of_ne hne] at hr
    rw [seenBy_of_pending hx'] at hr'
    have howner := h.2.2.1 hr ((willBe_of_pending hx').trans hr')
    rw [owner_of_pending hx'] at howner
    obtain ⟨y, hy⟩ := pending_of_owner howner
    exact hne y hy
  · rw [seenBy_of_ne hne] at hr
    rw [seenBy_of_ne hne'] at hr'
    exact h.1 ⟨hr, hr'⟩

theorem isNow_commit : (r.commit p).isNow k = (r.seenBy p).any k := congrArg (Option.any k) committed_commit

theorem willBe_commit (h : (r.commit p).willBe k = true) : r.commit p = r := by
  rcases pending_cases p r with ⟨x, hx⟩ | hne
  · rw [commit_of_pending hx] at h
    cases h
  · exact commit_of_ne hne

/-- After the commit of `p`, a row it did not write that will be `k` excludes that the other is `k` now. -/
theorem Compatible.commit_aux (h : Compatible k r r') (hr : (r.seenBy p).any k = true) (hw : r'.willBe k = true) :
    (r.commit p).owner = r'.owner := by
  rcases pending_cases p r with ⟨x, hx⟩ | hne
  · rw [seenBy_of_pending hx] at hr
    exact absurd ⟨(willBe_of_pending hx).trans hr, hw⟩ h.2.1
  · rw [seenBy_of_ne hne] at hr
    rw [commit_of_ne hne]
    exact h.2.2.1 hr hw

theorem Compatible.commit (p : ℕ) (h : Compatible k r r') : Compatible k (r.commit p) (r'.commit p) := by
  refine ⟨?_, ?_, ?_, ?_⟩
  · rw [isNow_commit, isNow_commit]
    exact fun hb => h.not_both hb.1 hb.2
  · rintro ⟨hw, hw'⟩
    rw [willBe_commit hw] at hw
    rw [willBe_commit hw'] at hw'
    exact h.2.1 ⟨hw, hw'⟩
  · intro hn hw
    have heq := willBe_commit hw
    rw [isNow_commit] at hn
    rw [heq] at hw ⊢
    exact h.commit_aux hn hw
  · intro hw hn
    have heq := willBe_commit hw
    rw [isNow_commit] at hn
    rw [heq] at hw ⊢
    exact (h.symm.commit_aux hn hw).symm

theorem isNow_rollback : (r.rollback p).isNow k = r.isNow k := by
  rcases pending_cases p r with ⟨x, hx⟩ | hne
  · rw [rollback_of_pending hx]
    rfl
  · rw [rollback_of_ne hne]

theorem willBe_rollback (h : (r.rollback p).willBe k = true) : r.rollback p = r ∧ r.owner ≠ some p := by
  rcases pending_cases p r with ⟨x, hx⟩ | hne
  · rw [rollback_of_pending hx] at h
    cases h
  · refine ⟨rollback_of_ne hne, fun howner => ?_⟩
    obtain ⟨x, hx⟩ := pending_of_owner howner
    exact hne x hx

theorem rollback_of_owner (h : r.owner ≠ some p) : r.rollback p = r :=
  rollback_of_ne fun _ hx => h (owner_of_pending hx)

theorem Compatible.rollback (p : ℕ) (h : Compatible k r r') : Compatible k (r.rollback p) (r'.rollback p) := by
  refine ⟨?_, ?_, ?_, ?_⟩
  · rw [isNow_rollback, isNow_rollback]
    exact h.1
  · rintro ⟨hw, hw'⟩
    rw [(willBe_rollback hw).1] at hw
    rw [(willBe_rollback hw').1] at hw'
    exact h.2.1 ⟨hw, hw'⟩
  · intro hn hw
    obtain ⟨heq, howner⟩ := willBe_rollback hw
    rw [isNow_rollback] at hn
    rw [heq] at hw ⊢
    have hsame := h.2.2.1 hn hw
    rw [rollback_of_owner (hsame ▸ howner)]
    exact hsame
  · intro hw hn
    obtain ⟨heq, howner⟩ := willBe_rollback hw
    rw [isNow_rollback] at hn
    rw [heq] at hw ⊢
    have hsame := h.2.2.2 hw hn
    rw [rollback_of_owner (hsame ▸ howner)]
    exact hsame

end Versioned

namespace Rows

/-- An update of `p` waits for a row that matches and that another transaction has written. -/
def waits (p : ℕ) (m : ℕ → ρ → Bool) (t : Rows ρ) : Bool :=
  (t.mapIdx fun i r => r.committed.any (m i) && !r.free p).any id

def update (p : ℕ) (m : ℕ → ρ → Bool) (f : ρ → ρ) (t : Rows ρ) : Option (Rows ρ) :=
  if waits p m t then none else some (t.mapIdx fun i r => r.rewrite p (m i) f)

def insert (p : ℕ) (x : ρ) (t : Rows ρ) : Rows ρ := t ++ [⟨none, some (p, x)⟩]

/-- `executeTakeFirst`: the place of the row. -/
def first (p : ℕ) (m : ρ → Bool) (t : Rows ρ) : Option ℕ := t.findIdx? fun r => (r.seenBy p).any m

/-- A row matches. -/
def any (p : ℕ) (m : ρ → Bool) (t : Rows ρ) : Bool := List.any t fun r => (r.seenBy p).any m

def commit (p : ℕ) (t : Rows ρ) : Rows ρ := t.map (Versioned.commit p)

def rollback (p : ℕ) (t : Rows ρ) : Rows ρ := t.map (Versioned.rollback p)

def Admits (k : ρ → Bool) (t : Rows ρ) : Prop := t.Pairwise (Versioned.Compatible k)

instance (k : ρ → Bool) (t : Rows ρ) : Decidable (Admits k t) := inferInstanceAs (Decidable (t.Pairwise _))

variable {p : ℕ} {t t' : Rows ρ} {k : ρ → Bool} {m : ℕ → ρ → Bool} {f : ρ → ρ}

theorem waits_eq_false : waits p m t = false ↔
    ∀ (i : ℕ) (r : Versioned ρ), t[i]? = some r → r.committed.any (m i) = true → r.free p = true := by
  unfold waits
  rw [List.any_eq_false]
  constructor
  · intro h i r hr hm
    have hmem := h _ (List.mem_of_getElem? (i := i) (by rw [List.getElem?_mapIdx, hr]; rfl))
    simpa [hm] using hmem
  · intro h b hb
    obtain ⟨i, hi⟩ := List.mem_iff_getElem?.mp hb
    rw [List.getElem?_mapIdx] at hi
    obtain ⟨r, hr, rfl⟩ := Option.map_eq_some_iff.mp hi
    have hfree := h i r hr
    cases hm : r.committed.any (m i) with
    | false => simp
    | true => simp [hfree hm]

/-- **Update.**  A row it matches is written, and nobody else has written it; the others stay. -/
theorem update_row (h : update p m f t = some t') (i : ℕ) : t'[i]? = t[i]? ∨
    ∃ (r : Versioned ρ) (x : ρ), t[i]? = some r ∧ r.seenBy p = some x ∧ m i x = true ∧ r.free p = true ∧
      t'[i]? = some (r.write p (f x)) := by
  unfold update at h
  split_ifs at h with hw
  obtain rfl := Option.some.inj h
  have hfree := waits_eq_false.mp (Bool.eq_false_iff.mpr hw)
  rw [List.getElem?_mapIdx]
  cases hr : t[i]? with
  | none => exact .inl rfl
  | some r =>
    rcases Versioned.rewrite_cases (p := p) (r := r) (m := m i) (f := f) with ⟨x, hx, hm, heq⟩ | ⟨heq, -⟩
    · refine .inr ⟨r, x, rfl, hx, hm, ?_, congrArg some heq⟩
      rcases Versioned.pending_cases p r with ⟨y, hy⟩ | hne
      · exact Versioned.free_of_pending hy
      · rw [Versioned.seenBy_of_ne hne] at hx
        exact hfree i r hr (by rw [hx]; exact hm)
    · exact .inl (congrArg some heq)

theorem update_match (h : update p m f t = some t') {i : ℕ} {r : Versioned ρ} {x : ρ} (hr : t[i]? = some r)
    (hx : r.seenBy p = some x) (hm : m i x = true) : t'[i]? = some (r.write p (f x)) := by
  unfold update at h
  split_ifs at h
  obtain rfl := Option.some.inj h
  rw [List.getElem?_mapIdx, hr]
  simp [Versioned.rewrite, hx, hm]

theorem insert_row {x : ρ} (i : ℕ) : (insert p x t)[i]? = t[i]? ∨
    t[i]? = none ∧ (insert p x t)[i]? = some ⟨none, some (p, x)⟩ := by
  unfold insert
  by_cases h : i < t.length
  · exact .inl (List.getElem?_append_left h)
  · have hle : t.length ≤ i := Nat.le_of_not_lt h
    have hnone : t[i]? = none := List.getElem?_eq_none hle
    rw [List.getElem?_append_right hle, hnone]
    cases hd : i - t.length with
    | zero => exact .inr ⟨rfl, rfl⟩
    | succ n => exact .inl rfl

theorem insert_new {x : ρ} : (insert p x t)[t.length]? = some ⟨none, some (p, x)⟩ := by
  simp [insert]

theorem commit_row (i : ℕ) : (commit p t)[i]? = t[i]?.map (Versioned.commit p) := List.getElem?_map

theorem rollback_row (i : ℕ) : (rollback p t)[i]? = t[i]?.map (Versioned.rollback p) := List.getElem?_map

theorem first_some {m : ρ → Bool} {i : ℕ} (h : first p m t = some i) :
    ∃ r x, t[i]? = some r ∧ r.seenBy p = some x ∧ m x = true := by
  obtain ⟨hi, hm, -⟩ := List.findIdx?_eq_some_iff_getElem.mp h
  obtain ⟨x, hx, hm⟩ := (Option.any_eq_true _ _).mp hm
  exact ⟨t[i], x, List.getElem?_eq_getElem hi, hx, hm⟩

theorem first_none {m : ρ → Bool} (h : first p m t = none) {i : ℕ} {r : Versioned ρ} {x : ρ} (hr : t[i]? = some r)
    (hx : r.seenBy p = some x) : m x = false := by
  have hm := List.findIdx?_eq_none_iff.mp h r (List.mem_of_getElem? hr)
  rw [hx] at hm
  exact hm

theorem Admits.commit (p : ℕ) (h : Admits k t) : Admits k (commit p t) :=
  List.pairwise_map.mpr (List.Pairwise.imp (fun hc => hc.commit p) h)

theorem Admits.rollback (p : ℕ) (h : Admits k t) : Admits k (rollback p t) :=
  List.pairwise_map.mpr (List.Pairwise.imp (fun hc => hc.rollback p) h)

theorem Admits.compatible (h : Admits k t) {i j : ℕ} {r r' : Versioned ρ} (hr : t[i]? = some r)
    (hr' : t[j]? = some r') (hij : i ≠ j) : Versioned.Compatible k r r' := by
  obtain ⟨hi, rfl⟩ := List.getElem?_eq_some_iff.mp hr
  obtain ⟨hj, rfl⟩ := List.getElem?_eq_some_iff.mp hr'
  rcases Nat.lt_or_gt_of_ne hij with hlt | hgt
  · exact List.pairwise_iff_getElem.mp h i j hi hj hlt
  · exact (List.pairwise_iff_getElem.mp h j i hj hi hgt).symm

theorem Admits.seen_unique (h : Admits k t) {i j : ℕ} {r r' : Versioned ρ} {x x' : ρ} (hr : t[i]? = some r)
    (hr' : t[j]? = some r') (hx : r.seenBy p = some x) (hx' : r'.seenBy p = some x') (hk : k x = true)
    (hk' : k x' = true) : i = j := by
  by_contra hij
  exact (h.compatible hr hr' hij).not_both (p := p) (by rw [hx]; exact hk) (by rw [hx']; exact hk')

end Rows

end TeamInbox.Lib
