import Mathlib.Data.List.Sort
import Mathlib.Data.List.Perm.Basic

/-!
# TeamInbox.Lib.Lines — texts of sorted lines, and lines of fields

Lines are sorted and joined.  The text does not depend on the order of the lines (`sortedText_perm`), and if no
line is empty or has a line break it says which lines there are, and how often (`sortedText_inj`).  A line of
fields says what its fields are if only the last of them may have the separator (`field_inj`).
-/

namespace TeamInbox.Lib

/-! ### Lines -/

section Lines

variable (le : String → String → Prop) [DecidableRel le]

def sortedText (lines : List String) : String := "\n".intercalate (lines.insertionSort le)

def LineOf (s : String) : Prop := '\n' ∉ s.toList

variable {le} {lines lines' : List String}

theorem sortedText_perm [Std.Total le] [IsTrans String le] [Std.Antisymm le] (h : lines.Perm lines') :
    sortedText le lines = sortedText le lines' := by
  unfold sortedText
  have hperm : (lines.insertionSort le).Perm (lines'.insertionSort le) :=
    ((List.perm_insertionSort le lines).trans h).trans (List.perm_insertionSort le lines').symm
  rw [hperm.eq_of_pairwise' (List.pairwise_insertionSort le _) (List.pairwise_insertionSort le _)]

theorem splitOn_intercalate_lines (hline : ∀ s ∈ lines, LineOf s) (hne : lines ≠ []) :
    ("\n".intercalate lines).toList.splitOn '\n' = lines.map String.toList := by
  rw [String.toList_intercalate]
  refine List.splitOn_intercalate '\n' (fun l hl => ?_) (by simpa using hne)
  obtain ⟨s, hs, rfl⟩ := List.mem_map.mp hl
  exact hline s hs

theorem intercalate_eq_empty (hne : ∀ s ∈ lines, s ≠ "") (h : "\n".intercalate lines = "") : lines = [] := by
  cases lines with
  | nil => rfl
  | cons s rest =>
    refine absurd ?_ (hne s List.mem_cons_self)
    cases rest with
    | nil => rwa [String.intercalate_singleton] at h
    | cons t rest =>
      rw [String.intercalate_cons_cons] at h
      exact (String.append_eq_empty_iff.mp (String.append_eq_empty_iff.mp h).1).1

theorem intercalate_lines_inj (hline : ∀ s ∈ lines, LineOf s) (hline' : ∀ s ∈ lines', LineOf s)
    (hne : ∀ s ∈ lines, s ≠ "") (hne' : ∀ s ∈ lines', s ≠ "")
    (h : "\n".intercalate lines = "\n".intercalate lines') : lines = lines' := by
  by_cases hnil : lines = []
  · rw [hnil, String.intercalate_nil] at h
    rw [hnil, intercalate_eq_empty hne' h.symm]
  by_cases hnil' : lines' = []
  · rw [hnil', String.intercalate_nil] at h
    exact absurd (intercalate_eq_empty hne h) hnil
  have hsplit := congrArg (fun t : String => t.toList.splitOn '\n') h
  rw [splitOn_intercalate_lines hline hnil, splitOn_intercalate_lines hline' hnil'] at hsplit
  exact List.map_injective_iff.mpr (fun _ _ => String.toList_inj.mp) hsplit

/-- **What a text of sorted lines says**: which lines there are, each as often as it is there. -/
theorem sortedText_inj (hline : ∀ s ∈ lines, LineOf s ∧ s ≠ "") (hline' : ∀ s ∈ lines', LineOf s ∧ s ≠ "")
    (h : sortedText le lines = sortedText le lines') : lines.Perm lines' := by
  have hsort := List.perm_insertionSort le lines
  have hsort' := List.perm_insertionSort le lines'
  have heq : lines.insertionSort le = lines'.insertionSort le :=
    intercalate_lines_inj (fun s hs => (hline s (hsort.mem_iff.mp hs)).1) (fun s hs => (hline' s (hsort'.mem_iff.mp hs)).1)
      (fun s hs => (hline s (hsort.mem_iff.mp hs)).2) (fun s hs => (hline' s (hsort'.mem_iff.mp hs)).2) h
  exact (heq ▸ hsort.symm).trans hsort'

end Lines

/-! ### Fields -/

theorem field_inj {sep : Char} {a b a' b' : String} (ha : sep ∉ a.toList) (ha' : sep ∉ a'.toList)
    (h : a ++ (String.singleton sep ++ b) = a' ++ (String.singleton sep ++ b')) : a = a' ∧ b = b' := by
  have hlist := congrArg (fun t : String => t.toList.splitOn sep) h
  simp only [String.toList_append, String.toList_singleton, List.singleton_append] at hlist
  rw [List.splitOn_append_cons_self_of_not_mem ha, List.splitOn_append_cons_self_of_not_mem ha'] at hlist
  obtain ⟨hfirst, hrest⟩ := List.cons.inj hlist
  refine ⟨String.toList_inj.mp hfirst, String.toList_inj.mp ?_⟩
  have hjoin : ∀ t : List Char, [sep].intercalate (t.splitOn sep) = t := fun _ => List.intercalate_splitOn sep
  rw [← hjoin b.toList, hrest, hjoin]

/-! ### Numbers -/

theorem isDigit_toString (n : ℕ) : ∀ c ∈ (toString n).toList, c.isDigit = true := fun c hc =>
  Nat.isDigit_of_mem_toDigits (by decide) (by decide) (Nat.toList_repr (n := n) ▸ hc)

theorem toString_injective {n m : ℕ} (h : toString n = toString m) : n = m := by
  have hlist : Nat.toDigits 10 n = Nat.toDigits 10 m := by
    have hchars := congrArg String.toList h
    rwa [Nat.toString_eq_repr, Nat.toString_eq_repr, Nat.toList_repr, Nat.toList_repr] at hchars
  have hval : ∀ k : ℕ, Nat.ofDigitChars 10 (Nat.toDigits 10 k) 0 = k := fun k =>
    Nat.ofDigitChars_toDigits (by decide) (by decide)
  rw [← hval n, hlist, hval]

/-- An integer in decimal. -/
def intText : ℤ → String
  | .ofNat n => toString n
  | .negSucc n => "-" ++ toString (n + 1)

theorem digit_of_mem_intText {i : ℤ} {c : Char} (h : c ∈ (intText i).toList) : c.isDigit = true ∨ c = '-' := by
  cases i with
  | ofNat n => exact .inl (isDigit_toString n c h)
  | negSucc n =>
    rw [intText, String.toList_append, List.mem_append] at h
    rcases h with h | h
    · exact .inr (List.mem_singleton.mp h)
    · exact .inl (isDigit_toString _ c h)

theorem intText_injective : Function.Injective intText := by
  have hmixed : ∀ n m : ℕ, toString n ≠ "-" ++ toString m := fun n m h => by
    have hmem : '-' ∈ (toString n).toList := by
      rw [h, String.toList_append]
      exact List.mem_append_left _ List.mem_cons_self
    exact absurd (isDigit_toString n _ hmem) (by decide)
  intro i j h
  cases i with
  | ofNat n =>
    cases j with
    | ofNat m => exact congrArg Int.ofNat (toString_injective h)
    | negSucc m => exact absurd h (hmixed n _)
  | negSucc n =>
    cases j with
    | ofNat m => exact absurd h.symm (hmixed m _)
    | negSucc m =>
      have htail : toString (n + 1) = toString (m + 1) := by
        have hchars := congrArg String.toList h
        simp only [intText, String.toList_append] at hchars
        exact String.toList_inj.mp (List.append_cancel_left hchars)
      exact congrArg Int.negSucc (Nat.succ.inj (toString_injective htail))

/-! ### Multisets from their images -/

section Images

variable {α β γ : Type} {f : α → β} {g : α → γ} {l l' : List α}

/-- If `f` tells apart what `g` does, lists with the same images under `f` have the same images under `g`. -/
theorem map_perm_of_map (hinj : ∀ a ∈ l, ∀ b ∈ l', f a = f b → g a = g b) (h : (l.map f).Perm (l'.map f)) :
    (l.map g).Perm (l'.map g) := by
  induction l generalizing l' with
  | nil => rw [List.map_eq_nil_iff.mp h.symm.eq_nil]
  | cons a l ih =>
    obtain ⟨b, hb, hba⟩ := List.mem_map.mp (h.mem_iff.mp List.mem_cons_self)
    have hg : g a = g b := hinj a List.mem_cons_self b hb hba.symm
    obtain ⟨before, after, rfl⟩ := List.append_of_mem hb
    have hmid : (before ++ b :: after).Perm (b :: (before ++ after)) := List.perm_middle
    have hrest : (l.map f).Perm ((before ++ after).map f) := by
      refine List.Perm.cons_inv (h.trans ?_)
      rw [← hba]
      exact hmid.map f
    have hih := ih (fun c hc d hd => hinj c (List.mem_cons_of_mem _ hc) d (hmid.mem_iff.mpr (List.mem_cons_of_mem _ hd))) hrest
    rw [List.map_cons, hg]
    exact (List.Perm.cons (g b) hih).trans (hmid.map g).symm

theorem perm_of_map (hinj : ∀ a ∈ l, ∀ b ∈ l', f a = f b → a = b) (h : (l.map f).Perm (l'.map f)) : l.Perm l' := by
  have hid : (l.map id).Perm (l'.map id) := map_perm_of_map hinj h
  rwa [List.map_id, List.map_id] at hid

end Images

end TeamInbox.Lib
