import Mathlib.Data.List.Dedup
import Mathlib.Data.List.TakeDrop
import Mathlib.Order.Nat

/-!
# TeamInbox.Lib.Retained — bounded lists

A list that holds the keys used last, each once, goes on doing so when a key is moved to its end
(`keepLast_use`).  A list of entries with deadlines: items are retired one after the other, each with a deadline; a list keeps those whose deadline is still to
come, and of these the last few.  If deadlines do not decrease, what the list accepts is what the history
says: the last few items, as long as their deadlines are to come (`Retained.accepts`).
-/

namespace TeamInbox.Lib

variable {α : Type}

/-- `slice(-cap)` -/
def keepLast (cap : ℕ) (l : List α) : List α := l.drop (l.length - cap)

theorem keepLast_reverse (cap : ℕ) (l : List α) : keepLast cap l.reverse = (l.take cap).reverse := by
  unfold keepLast
  rw [List.length_reverse, List.reverse_take]

theorem length_keepLast_le (cap : ℕ) (l : List α) : (keepLast cap l).length ≤ cap := by
  unfold keepLast
  rw [List.length_drop]
  omega

theorem keepLast_of_le {cap : ℕ} {l : List α} (h : l.length ≤ cap) : keepLast cap l = l := by
  unfold keepLast
  rw [Nat.sub_eq_zero_of_le h, List.drop_zero]

theorem keepLast_append {cap : ℕ} (before : List α) {l : List α} (h : cap ≤ l.length) :
    keepLast cap (before ++ l) = keepLast cap l := by
  have hsub : (before ++ l).length - cap = before.length + (l.length - cap) := by
    rw [List.length_append]
    omega
  unfold keepLast
  rw [hsub, List.drop_append, List.drop_eq_nil_of_le (Nat.le_add_right _ _), Nat.add_sub_cancel_left, List.nil_append]

theorem map_keepLast {β : Type} (f : α → β) (cap : ℕ) (l : List α) :
    (keepLast cap l).map f = keepLast cap (l.map f) := by
  unfold keepLast
  rw [List.map_drop, List.length_map]

section Recency

variable [DecidableEq α]

theorem dedup_concat (l : List α) (a : α) :
    (l ++ [a]).dedup = (l.dedup.filter fun b => decide (b ≠ a)) ++ [a] := by
  induction l with
  | nil => simp
  | cons b l ih =>
    rw [List.cons_append]
    by_cases hb : b ∈ l
    · rw [List.dedup_cons_of_mem (List.mem_append_left _ hb), List.dedup_cons_of_mem hb, ih]
    · rw [List.dedup_cons_of_notMem hb]
      by_cases hba : b = a
      · subst hba
        rw [List.dedup_cons_of_mem (by simp), ih, List.filter_cons_of_neg (by simp)]
      · rw [List.dedup_cons_of_notMem (by simp [hb, hba]), ih, List.filter_cons_of_pos (by simpa using hba)]
        rfl

theorem length_le_filter_ne {l : List α} (h : l.Nodup) (a : α) :
    l.length ≤ (l.filter fun b => decide (b ≠ a)).length + 1 := by
  induction l with
  | nil => exact Nat.zero_le _
  | cons b l ih =>
    obtain ⟨hb, hl⟩ := List.nodup_cons.mp h
    by_cases hba : b = a
    · subst hba
      have hall : ∀ c ∈ l, decide (c ≠ b) = true := by
        intro c hc
        exact decide_eq_true (ne_of_mem_of_not_mem hc hb)
      rw [List.filter_cons_of_neg (by simp), List.filter_eq_self.mpr hall, List.length_cons]
    · rw [List.filter_cons_of_pos (by simpa using hba), List.length_cons, List.length_cons]
      exact Nat.succ_le_succ (ih hl)

/-- **A key that is used moves to the end**, whether it is held, has been pushed out or is new. -/
theorem keepLast_use (cap : ℕ) (keys : List α) (a : α) :
    keepLast cap (((keepLast cap keys.dedup).filter fun b => decide (b ≠ a)) ++ [a]) =
      keepLast cap (keys ++ [a]).dedup := by
  rw [dedup_concat]
  by_cases hle : keys.dedup.length ≤ cap
  · rw [keepLast_of_le hle]
  · have hsplit : keys.dedup = keys.dedup.take (keys.dedup.length - cap) ++ keepLast cap keys.dedup :=
      (List.take_append_drop _ _).symm
    have hnodup : (keepLast cap keys.dedup).Nodup := (List.nodup_dedup keys).sublist (List.drop_sublist _ _)
    have hlen : (keepLast cap keys.dedup).length = cap := by
      unfold keepLast
      rw [List.length_drop]
      omega
    have hcap := length_le_filter_ne hnodup a
    have hlong : cap ≤ (((keepLast cap keys.dedup).filter fun b => decide (b ≠ a)) ++ [a]).length := by
      rw [List.length_append, List.length_singleton]
      omega
    conv_rhs => rw [hsplit, List.filter_append, List.append_assoc]
    exact (keepLast_append _ hlong).symm

end Recency

/-- A property that what comes later never has alone picks a beginning of the list. -/
theorem take_filter {p : α → Bool} {l : List α} (h : l.Pairwise fun a b => p b = true → p a = true) {n m : ℕ}
    (hle : n ≤ m) : ((l.take m).filter p).take n = (l.take n).filter p := by
  induction l generalizing n m with
  | nil => simp
  | cons a l ih =>
    obtain ⟨hfirst, hrest⟩ := List.pairwise_cons.mp h
    cases n with
    | zero => rw [List.take_zero, List.take_zero, List.filter_nil]
    | succ n =>
      obtain ⟨m, rfl⟩ : ∃ k, m = k + 1 := ⟨m - 1, by omega⟩
      rw [List.take_succ_cons, List.take_succ_cons]
      cases ha : p a with
      | true =>
        rw [List.filter_cons_of_pos ha, List.filter_cons_of_pos ha, List.take_succ_cons, ih hrest (by omega)]
      | false =>
        have hnone : ∀ k, (l.take k).filter p = [] := by
          refine fun k => List.filter_eq_nil_iff.mpr fun b hb hp => ?_
          have hpa := hfirst b (List.mem_of_mem_take hb) hp
          rw [ha] at hpa
          cases hpa
        rw [List.filter_cons_of_neg (by simp [ha]), List.filter_cons_of_neg (by simp [ha]), hnone, hnone, List.take_nil]

section Deadlines

variable (deadline : α → ℕ)

/-- The entries whose deadline is still to come. -/
def live (now : ℕ) (entries : List α) : List α := entries.filter fun e => decide (now < deadline e)

/-- What the list holds after the retirement at `last`; the history has the newest item first. -/
def Retained (cap : ℕ) (history : List α) (last : ℕ) (entries : List α) : Prop :=
  entries = (live deadline last (history.take cap)).reverse

def NewestFirst (history : List α) : Prop := history.Pairwise fun a b => deadline b ≤ deadline a

variable {deadline} {cap last now : ℕ} {history entries : List α} {item : α}

theorem live_live (hle : last ≤ now) (l : List α) : live deadline now (live deadline last l) = live deadline now l := by
  unfold live
  rw [List.filter_filter]
  refine List.filter_congr fun e _ => ?_
  by_cases h : now < deadline e
  · rw [decide_eq_true h, decide_eq_true (Nat.lt_of_le_of_lt hle h), Bool.and_self]
  · rw [decide_eq_false h, Bool.false_and]

theorem Retained.nil : Retained deadline cap [] last [] := by
  unfold Retained live
  simp

theorem Retained.still_live (h : Retained deadline cap history last entries) (hle : last ≤ now) :
    live deadline now entries = (live deadline now (history.take cap)).reverse := by
  rw [h, ← live_live hle (history.take cap)]
  exact List.filter_reverse

theorem Retained.retire (h : Retained deadline cap history last entries) (hord : NewestFirst deadline (item :: history))
    (hle : last ≤ now) (hitem : now < deadline item) :
    Retained deadline cap (item :: history) now (keepLast cap (live deadline now entries ++ [item])) := by
  unfold Retained
  rw [h.still_live hle, ← List.reverse_cons, keepLast_reverse]
  refine congrArg List.reverse ?_
  cases cap with
  | zero =>
    rw [List.take_zero, List.take_zero]
    rfl
  | succ cap =>
    have hmono : history.Pairwise fun a b => decide (now < deadline b) = true → decide (now < deadline a) = true := by
      refine (List.pairwise_cons.mp hord).2.imp fun hab hb => ?_
      exact decide_eq_true (Nat.lt_of_lt_of_le (of_decide_eq_true hb) hab)
    unfold live
    rw [List.take_succ_cons, List.take_succ_cons, take_filter hmono (Nat.le_succ cap),
      List.filter_cons_of_pos (p := fun e => decide (now < deadline e)) (decide_eq_true hitem)]

/-- An item that is retired at its deadline is not kept, and neither is an older one. -/
theorem Retained.expire (h : Retained deadline cap history last entries) (hord : NewestFirst deadline (item :: history))
    (hle : last ≤ now) (hitem : deadline item ≤ now) :
    Retained deadline cap (item :: history) now (live deadline now entries) := by
  have hnone : ∀ l : List α, (∀ e ∈ l, deadline e ≤ now) → live deadline now l = [] := by
    intro l hl
    refine List.filter_eq_nil_iff.mpr fun e he hlt => ?_
    have hdead := hl e he
    have hlt := of_decide_eq_true hlt
    omega
  have hall : ∀ e ∈ item :: history, deadline e ≤ now := by
    intro e he
    rcases List.mem_cons.mp he with rfl | he
    · exact hitem
    · exact le_trans ((List.pairwise_cons.mp hord).1 e he) hitem
  unfold Retained
  rw [h.still_live hle, hnone _ fun e he => hall e (List.mem_cons_of_mem _ (List.mem_of_mem_take he)),
    hnone _ fun e he => hall e (List.mem_of_mem_take he)]

/-- **What the list accepts**, from the history. -/
theorem Retained.accepts (h : Retained deadline cap history last entries) (hle : last ≤ now) {p : α → Prop} :
    (∃ e ∈ entries, p e ∧ now < deadline e) ↔ ∃ e ∈ history.take cap, p e ∧ now < deadline e := by
  have hmem : ∀ e, now < deadline e → (e ∈ entries ↔ e ∈ history.take cap) := by
    intro e hlt
    rw [h, List.mem_reverse]
    unfold live
    rw [List.mem_filter, decide_eq_true_eq]
    exact and_iff_left (Nat.lt_of_le_of_lt hle hlt)
  constructor
  · rintro ⟨e, he, hp, hlt⟩
    exact ⟨e, (hmem e hlt).mp he, hp, hlt⟩
  · rintro ⟨e, he, hp, hlt⟩
    exact ⟨e, (hmem e hlt).mpr he, hp, hlt⟩

theorem Retained.length_le (h : Retained deadline cap history last entries) : entries.length ≤ cap := by
  rw [h, List.length_reverse]
  exact (List.length_filter_le _ _).trans (List.length_take_le _ _)

theorem Retained.mem_history (h : Retained deadline cap history last entries) {e : α} (he : e ∈ entries) : e ∈ history := by
  rw [h, List.mem_reverse] at he
  exact List.mem_of_mem_take (List.mem_filter.mp he).1

end Deadlines

end TeamInbox.Lib
