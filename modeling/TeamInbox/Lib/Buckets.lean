import Mathlib.Algebra.GroupWithZero.Nat
import Mathlib.Algebra.BigOperators.Group.List.Basic
import Mathlib.Data.List.Nodup
import Mathlib.Data.List.Range

/-!
# TeamInbox.Lib.Buckets — counting along an axis

Items are put one after the other into the bucket of their key, and an axis of keys is collected by a loop
that goes from a key to the next one.  What is counted in the buckets of an axis is what is counted in all,
if the axis has the key of every item and has it once (`sum_buckets`).
-/

namespace TeamInbox.Lib

/-! ### Buckets -/

section Gather

variable {α β κ : Type} [DecidableEq κ] (empty : β) (add : β → α → β) (key : α → κ)

/-- The bucket is made when the first item of its key comes. -/
def putInto (buckets : κ → Option β) (a : α) : κ → Option β :=
  Function.update buckets (key a) (some (add ((buckets (key a)).getD empty) a))

def gather (items : List α) : κ → Option β := items.foldl (putInto empty add key) fun _ => none

theorem gather_concat (items : List α) (a : α) :
    gather empty add key (items ++ [a]) = putInto empty add key (gather empty add key items) a := by
  unfold gather
  rw [List.foldl_append, List.foldl_cons, List.foldl_nil]

theorem gather_getD (items : List α) (k : κ) :
    (gather empty add key items k).getD empty = (items.filter fun a => decide (key a = k)).foldl add empty := by
  induction items using List.reverseRecOn with
  | nil => rfl
  | append_singleton items a ih =>
    rw [gather_concat, List.filter_append, List.foldl_append]
    unfold putInto
    by_cases hk : key a = k
    · subst hk
      rw [Function.update_self, ih]
      simp
    · rw [Function.update_of_ne (Ne.symm hk), ih]
      simp [hk]

variable {empty add} {μ : β → ℕ} {w : α → ℕ}

theorem foldl_measure (hadd : ∀ b a, μ (add b a) = μ b + w a) (items : List α) (b : β) :
    μ (items.foldl add b) = μ b + (items.map w).sum := by
  induction items generalizing b with
  | nil => simp
  | cons a items ih =>
    rw [List.foldl_cons, ih, hadd, List.map_cons, List.sum_cons]
    omega

variable {key} in
theorem gather_measure (hempty : μ empty = 0) (hadd : ∀ b a, μ (add b a) = μ b + w a) (items : List α) (k : κ) :
    μ ((gather empty add key items k).getD empty) =
      ((items.filter fun a => decide (key a = k)).map w).sum := by
  rw [gather_getD, foldl_measure hadd, hempty, Nat.zero_add]

end Gather

section Sums

variable {α κ : Type} [DecidableEq κ] {key : α → κ} {w : α → ℕ} {keys : List κ}

theorem sum_indicator (hnodup : keys.Nodup) {k : κ} (hk : k ∈ keys) (v : ℕ) :
    (keys.map fun k' => if k = k' then v else 0).sum = v := by
  induction keys with
  | nil => cases hk
  | cons k' keys ih =>
    obtain ⟨hnot, htail⟩ := List.nodup_cons.mp hnodup
    rw [List.map_cons, List.sum_cons]
    by_cases h : k = k'
    · subst h
      have hzero : (keys.map fun k' => if k = k' then v else 0).sum = 0 := by
        refine List.sum_eq_zero fun x hx => ?_
        obtain ⟨k', hk', rfl⟩ := List.mem_map.mp hx
        exact if_neg fun heq : k = k' => hnot (heq ▸ hk')
      rw [if_pos rfl, hzero, Nat.add_zero]
    · rw [if_neg h, Nat.zero_add]
      exact ih htail ((List.mem_cons.mp hk).resolve_left h)

/-- **Counting along an axis.** -/
theorem sum_buckets (hnodup : keys.Nodup) {items : List α} (hall : ∀ a ∈ items, key a ∈ keys) :
    (keys.map fun k => ((items.filter fun a => decide (key a = k)).map w).sum).sum = (items.map w).sum := by
  induction items with
  | nil => simp
  | cons a items ih =>
    have hsplit : ∀ k, (((a :: items).filter fun a => decide (key a = k)).map w).sum =
        (if key a = k then w a else 0) + ((items.filter fun a => decide (key a = k)).map w).sum := by
      intro k
      by_cases h : key a = k
      · rw [List.filter_cons_of_pos (by simpa using h), List.map_cons, List.sum_cons, if_pos h]
      · rw [List.filter_cons_of_neg (by simpa using h), if_neg h, Nat.zero_add]
    simp only [hsplit]
    rw [List.sum_map_add, sum_indicator hnodup (hall a List.mem_cons_self),
      ih fun b hb => hall b (List.mem_cons_of_mem a hb), List.map_cons, List.sum_cons]

end Sums

/-! ### The axis -/

section Axis

variable {α : Type} {test : α → Bool} {next : α → α} {nth : ℤ → α} {last : ℤ}

/-- `while (test(a)) { push(a); a = next(a); }` for at most so many rounds. -/
def collectWhile (test : α → Bool) (next : α → α) : ℕ → α → Option (List α)
  | 0, _ => none
  | fuel + 1, a => if test a then (collectWhile test next fuel (next a)).map (a :: ·) else some []

/-- The values numbered from `n` to `last`. -/
def numbered (nth : ℤ → α) (n last : ℤ) : List α := (List.range (last + 1 - n).toNat).map fun i : ℕ => nth (n + i)

theorem mem_numbered {n : ℤ} {a : α} : a ∈ numbered nth n last ↔ ∃ k, n ≤ k ∧ k ≤ last ∧ nth k = a := by
  unfold numbered
  rw [List.mem_map]
  constructor
  · rintro ⟨i, hi, rfl⟩
    have hi := List.mem_range.mp hi
    exact ⟨n + i, by omega, by omega, rfl⟩
  · rintro ⟨k, hlow, hhigh, rfl⟩
    refine ⟨(k - n).toNat, List.mem_range.mpr (by omega), congrArg nth ?_⟩
    omega

theorem numbered_pairwise {r : α → α → Prop} (h : ∀ i j, i < j → r (nth i) (nth j)) (n : ℤ) :
    (numbered nth n last).Pairwise r := by
  unfold numbered
  rw [List.pairwise_map]
  exact List.pairwise_lt_range.imp fun hlt => h _ _ (by omega)

/-- A loop from one numbered value to the next ends after the last one. -/
theorem collectWhile_eq (hnext : ∀ n, next (nth n) = nth (n + 1)) (htest : ∀ n, test (nth n) = true ↔ n ≤ last)
    {n : ℤ} {fuel : ℕ} (hfuel : (last + 1 - n).toNat < fuel) :
    collectWhile test next fuel (nth n) = some (numbered nth n last) := by
  induction fuel generalizing n with
  | zero => exact absurd hfuel (Nat.not_lt_zero _)
  | succ fuel ih =>
    unfold collectWhile numbered
    by_cases h : n ≤ last
    · obtain ⟨k, hk⟩ : ∃ k, (last + 1 - n).toNat = k + 1 := ⟨(last - n).toNat, by omega⟩
      have hrest : (last + 1 - (n + 1)).toNat = k := by omega
      rw [if_pos ((htest n).mpr h), hnext, ih (by omega), hk, List.range_succ_eq_map]
      unfold numbered
      rw [hrest, Option.map_some, List.map_cons, List.map_map]
      refine congrArg some (congrArg₂ List.cons ?_ (List.map_congr_left fun i _ => congrArg nth ?_))
      · exact congrArg nth (by omega)
      · push_cast
        omega
    · have hzero : (last + 1 - n).toNat = 0 := by omega
      rw [if_neg fun ht => h ((htest n).mp ht), hzero]
      rfl

theorem collectWhile_mono {fuel more : ℕ} (hle : fuel ≤ more) {a : α} {l : List α}
    (h : collectWhile test next fuel a = some l) : collectWhile test next more a = some l := by
  induction fuel generalizing more a l with
  | zero => cases h
  | succ fuel ih =>
    obtain ⟨more, rfl⟩ : ∃ k, more = k + 1 := ⟨more - 1, by omega⟩
    unfold collectWhile at h ⊢
    by_cases ht : test a = true
    · rw [if_pos ht] at h ⊢
      obtain ⟨tail, htail, rfl⟩ := Option.map_eq_some_iff.mp h
      rw [ih (by omega) htail]
      rfl
    · rw [if_neg ht] at h ⊢
      exact h

end Axis

end TeamInbox.Lib
