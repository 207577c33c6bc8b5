import Mathlib.Data.List.Basic

/-!
# TeamInbox.Lib.Relational — tables with foreign keys, and DELETE

The rows of all tables are one list; a row has an id and columns that may hold ids of other rows.
`deleteWhere` is DELETE.  The selected rows fall, with them the rows that refer to a fallen one by a cascading
key, and so on.  If a row that stays refers to a fallen one by a restricting key, the statement fails;
otherwise the keys that are to be set to null are cleared.
-/

namespace TeamInbox.Lib

/-- What becomes of a row when the row it refers to is deleted. -/
inductive OnDelete
  | restrict
  | cascade
  | setNull
  deriving DecidableEq

/-- A column of one table that refers to the ids of another one. -/
structure ForeignKey (T C : Type) where
  table : T
  column : C
  parent : T
  onDelete : OnDelete
  deriving DecidableEq

/-- A row: its table, its id, the columns with ids, and the rest of its data. -/
structure Row (T C δ : Type) where
  table : T
  id : ℕ
  link : C → Option ℕ
  data : δ

variable {T C δ : Type}

def Row.clear [DecidableEq C] (c : C) (r : Row T C δ) : Row T C δ := { r with link := Function.update r.link c none }

theorem Row.link_clear_self [DecidableEq C] (c : C) (r : Row T C δ) : (r.clear c).link c = none :=
  Function.update_self c _ r.link

theorem Row.link_clear_of_ne [DecidableEq C] {c c' : C} (hc : c' ≠ c) (r : Row T C δ) : (r.clear c).link c' = r.link c' :=
  Function.update_of_ne hc _ r.link

/-- `r'` is `r`, but for columns that have been cleared for the reason `why`, and but for its data. -/
structure Row.Keeps (why : T → C → ℕ → Prop) (r r' : Row T C δ) : Prop where
  table : r'.table = r.table
  id : r'.id = r.id
  link : ∀ c, r'.link c = r.link c ∨ (r'.link c = none ∧ ∃ i, r.link c = some i ∧ why r.table c i)

namespace Row.Keeps

variable {why : T → C → ℕ → Prop} {r r' r'' : Row T C δ}

theorem refl (r : Row T C δ) : Row.Keeps why r r := ⟨rfl, rfl, fun _ => .inl rfl⟩

theorem link_some (h : Row.Keeps why r r') {c : C} {i : ℕ} (hc : r'.link c = some i) : r.link c = some i := by
  rcases h.link c with heq | ⟨hnone, -⟩
  · rw [← heq]
    exact hc
  · rw [hnone] at hc
    cases hc

theorem trans (h : Row.Keeps why r r') (h' : Row.Keeps why r' r'') : Row.Keeps why r r'' := by
  refine ⟨h'.table.trans h.table, h'.id.trans h.id, fun c => ?_⟩
  rcases h'.link c with heq | ⟨hnone, i, hi, hwhy⟩
  · rw [heq]
    exact h.link c
  · rw [h.table] at hwhy
    exact .inr ⟨hnone, i, h.link_some hi, hwhy⟩

theorem mono {why' : T → C → ℕ → Prop} (h : Row.Keeps why r r') (hle : ∀ t c i, why t c i → why' t c i) :
    Row.Keeps why' r r' := by
  refine ⟨h.table, h.id, fun c => ?_⟩
  rcases h.link c with heq | ⟨hnone, i, hi, hwhy⟩
  · exact .inl heq
  · exact .inr ⟨hnone, i, hi, hle _ c i hwhy⟩

theorem clear [DecidableEq C] {c : C} (hwhy : ∀ i, r.link c = some i → why r.table c i) :
    Row.Keeps why r (r.clear c) := by
  refine ⟨rfl, rfl, fun c' => ?_⟩
  by_cases hc : c' = c
  · subst hc
    cases hlink : r.link c' with
    | none => exact .inl (Row.link_clear_self c' r)
    | some i => exact .inr ⟨Row.link_clear_self c' r, i, rfl, hwhy i hlink⟩
  · exact .inl (Row.link_clear_of_ne hc r)

end Row.Keeps

variable [DecidableEq T]

namespace ForeignKey

def refers (k : ForeignKey T C) (r p : Row T C δ) : Bool :=
  decide (r.table = k.table) && decide (p.table = k.parent) && (r.link k.column == some p.id)

theorem refers_iff {k : ForeignKey T C} {r p : Row T C δ} :
    k.refers r p = true ↔ r.table = k.table ∧ p.table = k.parent ∧ r.link k.column = some p.id := by
  unfold refers
  rw [Bool.and_eq_true, Bool.and_eq_true, decide_eq_true_eq, decide_eq_true_eq, beq_iff_eq, and_assoc]

end ForeignKey

/-! ### The statement -/

section Statement

variable (keys : List (ForeignKey T C))

/-- A key with the action refers to one of the rows. -/
def refersBy (action : OnDelete) (rows : List (Row T C δ)) (r : Row T C δ) : Bool :=
  keys.any fun k => decide (k.onDelete = action) && rows.any (k.refers r)

/-- The rows that fall and those that stay, after `n` generations. -/
def fall : ℕ → List (Row T C δ) → List (Row T C δ) → List (Row T C δ) × List (Row T C δ)
  | 0, fallen, live => (fallen, live)
  | n + 1, fallen, live =>
    if live.any (refersBy keys .cascade fallen) then
      fall n (fallen ++ live.filter (refersBy keys .cascade fallen))
        (live.filter fun r => !refersBy keys .cascade fallen r)
    else (fallen, live)

def clearKey [DecidableEq C] (fallen : List (Row T C δ)) (r : Row T C δ) (k : ForeignKey T C) : Row T C δ :=
  if decide (k.onDelete = .setNull) && fallen.any (k.refers r) then r.clear k.column else r

def clearKeys [DecidableEq C] (fallen : List (Row T C δ)) (r : Row T C δ) : Row T C δ := keys.foldl (clearKey fallen) r

/-- `none` is a violated foreign key. -/
def deleteWhere [DecidableEq C] (p : Row T C δ → Bool) (rows : List (Row T C δ)) : Option (List (Row T C δ)) :=
  let (fallen, live) := fall keys rows.length (rows.filter p) (rows.filter fun r => !p r)
  if live.any (refersBy keys .restrict fallen) then none else some (live.map (clearKeys keys fallen))

end Statement

/-! ### What falls -/

section Fall

variable {keys : List (ForeignKey T C)} {fallen live rows : List (Row T C δ)} {r : Row T C δ}

theorem refersBy_iff {action : OnDelete} : refersBy keys action rows r = true ↔
    ∃ k ∈ keys, k.onDelete = action ∧ ∃ p ∈ rows, k.refers r p = true := by
  unfold refersBy
  simp only [List.any_eq_true, Bool.and_eq_true, decide_eq_true_eq]

theorem fall_perm (n : ℕ) : ((fall keys n fallen live).1 ++ (fall keys n fallen live).2).Perm (fallen ++ live) := by
  induction n generalizing fallen live with
  | zero => exact List.Perm.refl _
  | succ n ih =>
    unfold fall
    by_cases hany : live.any (refersBy keys .cascade fallen) = true
    · rw [if_pos hany]
      refine ih.trans ?_
      rw [List.append_assoc]
      exact (List.filter_append_perm _ live).append_left fallen
    · rw [if_neg hany]

theorem mem_of_mem_live (n : ℕ) (h : r ∈ (fall keys n fallen live).2) : r ∈ live := by
  induction n generalizing fallen live with
  | zero => exact h
  | succ n ih =>
    unfold fall at h
    by_cases hany : live.any (refersBy keys .cascade fallen) = true
    · rw [if_pos hany] at h
      exact (List.mem_filter.mp (ih h)).1
    · rw [if_neg hany] at h
      exact h

/-- What holds of the selected rows, and of a row with the row it refers to by a cascading key, holds of all that fall. -/
theorem fall_induct {Q : Row T C δ → Prop} (n : ℕ) (hfallen : ∀ r ∈ fallen, Q r)
    (hcascade : ∀ r ∈ live, ∀ p, Q p → ∀ k ∈ keys, k.onDelete = .cascade → k.refers r p = true → Q r) :
    ∀ r ∈ (fall keys n fallen live).1, Q r := by
  induction n generalizing fallen live with
  | zero => exact hfallen
  | succ n ih =>
    unfold fall
    by_cases hany : live.any (refersBy keys .cascade fallen) = true
    · rw [if_pos hany]
      refine ih (fun r hr => ?_) fun r hr => hcascade r (List.mem_filter.mp hr).1
      rcases List.mem_append.mp hr with hr | hr
      · exact hfallen r hr
      · obtain ⟨hlive, hrefers⟩ := List.mem_filter.mp hr
        obtain ⟨k, hk, haction, p, hp, href⟩ := refersBy_iff.mp hrefers
        exact hcascade r hlive p (hfallen p hp) k hk haction href
    · rw [if_neg hany]
      exact hfallen

end Fall

section Delete

variable [DecidableEq C] {keys : List (ForeignKey T C)} {fallen rows rows' : List (Row T C δ)} {p : Row T C δ → Bool}

theorem data_clearKeys (keys : List (ForeignKey T C)) (r : Row T C δ) : (clearKeys keys fallen r).data = r.data := by
  unfold clearKeys
  induction keys generalizing r with
  | nil => rfl
  | cons k keys ih =>
    rw [List.foldl_cons, ih]
    unfold clearKey
    split <;> rfl

theorem keeps_clearKeys {why : T → C → ℕ → Prop} (keys : List (ForeignKey T C))
    (hwhy : ∀ k ∈ keys, k.onDelete = .setNull → ∀ p ∈ fallen, k.parent = p.table → why k.table k.column p.id)
    (r : Row T C δ) : Row.Keeps why r (clearKeys keys fallen r) := by
  unfold clearKeys
  induction keys generalizing r with
  | nil => exact .refl r
  | cons k keys ih =>
    rw [List.foldl_cons]
    refine Row.Keeps.trans ?_ (ih (fun k' hk' => hwhy k' (List.mem_cons_of_mem k hk')) _)
    unfold clearKey
    by_cases hset : (decide (k.onDelete = .setNull) && fallen.any (k.refers r)) = true
    · rw [if_pos hset]
      obtain ⟨haction, hany⟩ := Bool.and_eq_true_iff.mp hset
      obtain ⟨q, hq, hrefers⟩ := List.any_eq_true.mp hany
      obtain ⟨htable, hparent, hlink⟩ := ForeignKey.refers_iff.mp hrefers
      refine .clear fun i hi => ?_
      obtain rfl : i = q.id := Option.some.inj (hi.symm.trans hlink)
      rw [htable]
      exact hwhy k List.mem_cons_self (of_decide_eq_true haction) q hq hparent.symm
    · rw [if_neg hset]
      exact .refl r

/-- **A deletion that succeeds**: what falls was selected or falls with what it refers to, and everything else stays,
but for the keys that are set to null. -/
theorem deleteWhere_spec {Q : Row T C δ → Prop} (h : deleteWhere keys p rows = some rows')
    (hselect : ∀ r ∈ rows, p r = true → Q r)
    (hcascade : ∀ r ∈ rows, ∀ q ∈ rows, Q q → ∀ k ∈ keys, k.onDelete = .cascade → k.refers r q = true → Q r) :
    ∃ fallen live : List (Row T C δ), (fallen ++ live).Perm rows ∧ (∀ r ∈ fallen, r ∈ rows ∧ Q r) ∧ (∀ r ∈ live, r ∈ rows ∧ p r = false) ∧
      rows' = live.map (clearKeys keys fallen) := by
  unfold deleteWhere at h
  dsimp only at h
  split at h
  · cases h
  · cases h
    refine ⟨_, _, (fall_perm rows.length).trans (List.filter_append_perm p rows), ?_, fun r hr => ?_, rfl⟩
    · refine fall_induct rows.length (fun r hr => ?_) fun r hr q hq k hk haction hrefers => ?_
      · obtain ⟨hr, hp⟩ := List.mem_filter.mp hr
        exact ⟨hr, hselect r hr hp⟩
      · have hr := (List.mem_filter.mp hr).1
        exact ⟨hr, hcascade r hr q hq.1 hq.2 k hk haction hrefers⟩
    · obtain ⟨hr, hp⟩ := List.mem_filter.mp (mem_of_mem_live rows.length hr)
      exact ⟨hr, by simpa using hp⟩

end Delete

end TeamInbox.Lib
