import TeamInbox.Lib.Indexed
import Mathlib.Data.List.Flatten

/-!
# TeamInbox.Lib.Sql — conditions, outer joins and pages

A condition is true, false or `none` (NULL), and a row is selected where its condition is true.  An outer join of a
table with a unique index, on the key of the index, gives one row.  `Ordering` is a result in an order that `ORDER BY`
admits: where no two rows are alike in that order it is the only one, and pages read one by one make up the result.
-/

namespace TeamInbox.Lib.Sql

variable {α β κ : Type}

/-! ### Conditions -/

abbrev Condition := Option Bool

/-- `a = b`, of columns that may be null. -/
def eq [DecidableEq α] (a b : Option α) : Condition := a.bind fun x => b.map fun y => decide (x = y)

def or : Condition → Condition → Condition
  | some true, _ => some true
  | _, some true => some true
  | some false, some false => some false
  | _, _ => none

def and : Condition → Condition → Condition
  | some false, _ => some false
  | _, some false => some false
  | some true, some true => some true
  | _, _ => none

def not (s : Condition) : Condition := s.map Bool.not

/-- The conditions, joined by `AND`. -/
def all (conditions : List Condition) : Condition := conditions.foldr and (some true)

/-- `EXISTS`: true or false. -/
def ex (rows : List α) (condition : α → Condition) : Condition := some (rows.any fun a => condition a == some true)

@[simp] theorem eq_true [DecidableEq α] {a b : Option α} : eq a b = some true ↔ ∃ x, a = some x ∧ b = some x := by
  cases a <;> cases b <;> simp [eq, eq_comm]

@[simp] theorem or_true {s t : Condition} : or s t = some true ↔ s = some true ∨ t = some true := by
  rcases s with _ | _ | _ <;> rcases t with _ | _ | _ <;> simp [or]

@[simp] theorem and_true {s t : Condition} : and s t = some true ↔ s = some true ∧ t = some true := by
  rcases s with _ | _ | _ <;> rcases t with _ | _ | _ <;> simp [and]

@[simp] theorem ex_true {rows : List α} {condition : α → Condition} :
    ex rows condition = some true ↔ ∃ a ∈ rows, condition a = some true := by
  simp [ex]

@[simp] theorem not_ex_true {rows : List α} {condition : α → Condition} :
    not (ex rows condition) = some true ↔ ∀ a ∈ rows, condition a ≠ some true := by
  simp [not, ex]

@[simp] theorem all_true {conditions : List Condition} : all conditions = some true ↔ ∀ s ∈ conditions, s = some true := by
  unfold all
  induction conditions with
  | nil => simp
  | cons s conditions ih => rw [List.foldr_cons, and_true, ih, List.forall_mem_cons]

/-! ### Outer joins -/

/-- The rows that `LEFT JOIN` puts beside a row. -/
def leftJoin (rows : List β) (on : β → Bool) : List (Option β) :=
  if rows.any on then (rows.filter on).map some else [none]

theorem filter_unique {key : β → Option κ} {rows : List β} (hunique : Unique key rows) {on : β → Bool} {k : κ}
    (hon : ∀ b ∈ rows, on b = true → key b = some k) : rows.filter on = (rows.find? on).toList := by
  induction rows with
  | nil => rfl
  | cons a rows ih =>
    have hrest := List.pairwise_cons.mp hunique
    have ih := ih hrest.2 fun b hb => hon b (List.mem_cons_of_mem a hb)
    by_cases ha : on a = true
    · have hnone : rows.filter on = [] := List.filter_eq_nil_iff.mpr fun b hb hbon =>
        (hrest.1 b hb).not_both (hon a List.mem_cons_self ha) (hon b (List.mem_cons_of_mem a hb) hbon)
      simp [ha, hnone]
    · simpa [ha] using ih

/-- **A join on the key of a unique index** gives one row. -/
theorem leftJoin_unique {key : β → Option κ} {rows : List β} (hunique : Unique key rows) {on : β → Bool} {k : κ}
    (hon : ∀ b ∈ rows, on b = true → key b = some k) : leftJoin rows on = [rows.find? on] := by
  unfold leftJoin
  rw [filter_unique hunique hon]
  cases hfind : rows.find? on with
  | none =>
    refine if_neg fun hany => ?_
    obtain ⟨b, hb, hbon⟩ := List.any_eq_true.mp hany
    exact List.find?_eq_none.mp hfind b hb hbon
  | some b => exact if_pos (List.any_eq_true.mpr ⟨b, List.mem_of_find?_eq_some hfind, List.find?_some hfind⟩)

/-! ### Pages -/

variable (before : α → α → Prop)

/-- The rows, in an order in which none comes before one that it has to follow. -/
structure Ordering (rows l : List α) : Prop where
  perm : l.Perm rows
  sorted : l.Pairwise before

/-- `LIMIT … OFFSET …` -/
def page (limit offset : ℕ) (l : List α) : List α := (l.drop offset).take limit

variable {before}

theorem Ordering.unique {rows l l' : List α} (hanti : ∀ a ∈ rows, ∀ b ∈ rows, before a b → before b a → a = b)
    (h : Ordering before rows l) (h' : Ordering before rows l') : l = l' :=
  (h.perm.trans h'.perm.symm).eq_of_pairwise
    (fun a b ha hb hab hba => hanti a (h.perm.mem_iff.mp ha) b (h'.perm.mem_iff.mp hb) hab hba) h.sorted h'.sorted

theorem pages_concat (limit : ℕ) (l : List α) (k : ℕ) :
    (List.range k).flatMap (fun i => page limit (i * limit) l) = l.take (k * limit) := by
  induction k with
  | zero => simp
  | succ k ih =>
    rw [List.range_succ, List.flatMap_append, ih, List.flatMap_singleton, Nat.succ_mul, List.take_add]
    rfl

/-- **Pages read one by one.**  Each may see the rows in an order of its own. -/
theorem pages_perm {rows : List α} (hanti : ∀ a ∈ rows, ∀ b ∈ rows, before a b → before b a → a = b)
    {order : ℕ → List α} (horder : ∀ i, Ordering before rows (order i)) {limit k : ℕ} (hk : rows.length ≤ k * limit) :
    ((List.range k).flatMap fun i => page limit (i * limit) (order i)).Perm rows := by
  have hsame : ∀ i, order i = order 0 := fun i => (horder i).unique hanti (horder 0)
  have hpages : ((List.range k).flatMap fun i => page limit (i * limit) (order i)) = order 0 := by
    simp only [hsame]
    rw [pages_concat, List.take_of_length_le]
    rw [(horder 0).perm.length_eq]
    exact hk
  rw [hpages]
  exact (horder 0).perm

end TeamInbox.Lib.Sql
