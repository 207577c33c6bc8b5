import Mathlib.Algebra.BigOperators.Group.List.Lemmas
import Mathlib.Algebra.GroupWithZero.Nat
import Mathlib.Data.List.Lookmap

/-!
# TeamInbox.Lib.Group — grouped counts and rows rewritten in place

`groupCount key rows` is `SELECT key, count(*) … GROUP BY key`: one entry for every key that occurs, with
the number of its rows.  What a reader looks up in the result is that number.

The second part counts rows of a list through the three ways a statement changes a table that is kept as a
list: rewriting rows in place, appending and deleting.
-/

namespace TeamInbox.Lib

variable {α κ : Type} [DecidableEq κ]

/-- The groups of the rows, each with its size. -/
def groupCount (key : α → κ) (rows : List α) : List (κ × ℕ) :=
  (rows.map key).dedup.map fun k => (k, (rows.map key).count k)

theorem lookup_map_self {l : List κ} (f : κ → ℕ) (k : κ) :
    (l.map fun k => (k, f k)).lookup k = if k ∈ l then some (f k) else none := by
  induction l with
  | nil => rfl
  | cons a l ih =>
    rw [List.map_cons, List.lookup_cons]
    by_cases h : k = a
    · subst h
      simp
    · have hne : (k == a) = false := beq_eq_false_iff_ne.mpr h
      rw [hne, ih]
      simp [h]

theorem count_map_key (key : α → κ) (rows : List α) (k : κ) :
    (rows.map key).count k = rows.countP fun r => decide (key r = k) := by
  rw [List.count_eq_countP, List.countP_map]
  exact List.countP_congr fun r _ => by simp

theorem lookup_groupCount (key : α → κ) (rows : List α) (k : κ) :
    ((groupCount key rows).lookup k).getD 0 = rows.countP fun r => decide (key r = k) := by
  rw [← count_map_key]
  unfold groupCount
  rw [lookup_map_self]
  by_cases h : k ∈ rows.map key
  · rw [if_pos (List.mem_dedup.mpr h)]
    rfl
  · rw [if_neg fun hk => h (List.mem_dedup.mp hk), List.count_eq_zero_of_not_mem h]
    rfl

/-- The groups whose keys meet a condition hold all rows that do. -/
theorem sum_groupCount_filter (key : α → κ) (rows : List α) (q : κ → Bool) :
    (((groupCount key rows).filter fun g => q g.1).map (·.2)).sum = rows.countP fun r => q (key r) := by
  unfold groupCount
  rw [List.filter_map, List.map_map]
  exact (List.sum_map_count_dedup_filter_eq_countP q (rows.map key)).trans List.countP_map

theorem sum_groupCount (key : α → κ) (rows : List α) (k : κ) :
    (((groupCount key rows).filter fun g => decide (g.1 = k)).map (·.2)).sum =
      rows.countP fun r => decide (key r = k) := sum_groupCount_filter key rows fun k' => decide (k' = k)

/-! ### Rows in place -/

theorem countP_map_of_iff {f : α → α} {p : α → Bool} {rows : List α} (h : ∀ r ∈ rows, p (f r) = p r) :
    (rows.map f).countP p = rows.countP p := by
  rw [List.countP_map]
  exact List.countP_congr fun r hr => by rw [Function.comp_apply, h r hr]

theorem countP_le_countP_map {f : α → α} {p : α → Bool} {rows : List α}
    (h : ∀ r ∈ rows, p r = true → p (f r) = true) : rows.countP p ≤ (rows.map f).countP p := by
  rw [List.countP_map]
  exact List.countP_mono_left fun r hr hp => h r hr hp

theorem countP_filter_add (p q : α → Bool) (rows : List α) :
    (rows.filter q).countP p + (rows.filter fun r => !q r).countP p = rows.countP p := by
  induction rows with
  | nil => rfl
  | cons r rows ih =>
    cases hq : q r with
    | true =>
      rw [List.filter_cons_of_pos hq, List.filter_cons_of_neg (by simp [hq])]
      simp only [List.countP_cons]
      omega
    | false =>
      rw [List.filter_cons_of_neg (by simp [hq]), List.filter_cons_of_pos (by simp [hq])]
      simp only [List.countP_cons]
      omega

end TeamInbox.Lib
