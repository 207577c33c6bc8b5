import Mathlib.Data.List.DropRight
import Mathlib.Data.List.Sort

/-!
# TeamInbox.Lib.Islands — gaps and islands

A list in the order of a key is cut by a test `q` into islands, the maximal runs of elements with `q`, and
the gaps between them.  A window function finds the first element of an island by looking one row back
(`starts`), and the gap after it by the least key above (`firstAfter`).  `mem_starts` and `firstAfter_eq`
say that this is right; `separated` is the fact the counting results rest on: between two islands there
is a gap.
-/

namespace TeamInbox.Lib

variable {α : Type}

/-- Every element with the one before it. -/
def withLag : Option α → List α → List (Option α × α)
  | _, [] => []
  | prev, x :: xs => (prev, x) :: withLag (some x) xs

/-- The elements with `q` that come first or after one without it. -/
def starts (q : α → Bool) (l : List α) : List α :=
  ((withLag none l).filter fun r => q r.2 && r.1.all fun p => !q p).map (·.2)

/-- The first element without `q` whose key is above that of `x`. -/
def firstAfter (q : α → Bool) (key : α → ℕ) (l : List α) (x : α) : Option α :=
  (l.filter fun y => !q y && decide (key x < key y)).head?

/-- The elements with `q` that follow `x` without a gap. -/
def runAfter (q : α → Bool) (key : α → ℕ) (l : List α) (x : α) : List α :=
  (l.filter fun y => decide (key x < key y)).takeWhile q

/-- `run` is an island of `l`, and `rest` is what follows it. -/
structure Island (q : α → Bool) (l run rest : List α) : Prop where
  inside : ∃ pre, l = pre ++ run ++ rest ∧ ∀ x ∈ pre.getLast?, q x = false
  nonempty : run ≠ []
  all : ∀ x ∈ run, q x = true
  stop : ∀ x ∈ rest.head?, q x = false

section Starts

variable {q : α → Bool} {l : List α} {x : α}

theorem withLag_snd (prev : Option α) (l : List α) : (withLag prev l).map (·.2) = l := by
  induction l generalizing prev with
  | nil => rfl
  | cons x xs ih => simp [withLag, ih]

theorem mem_withLag {prev o : Option α} : (o, x) ∈ withLag prev l ↔
    ∃ pre post, l = pre ++ x :: post ∧ o = (pre.getLast?).or prev := by
  induction l generalizing prev with
  | nil => simp [withLag]
  | cons y ys ih =>
    simp only [withLag, List.mem_cons, Prod.mk.injEq, ih]
    constructor
    · rintro (⟨rfl, rfl⟩ | ⟨pre, post, rfl, rfl⟩)
      · exact ⟨[], ys, rfl, rfl⟩
      · refine ⟨y :: pre, post, rfl, ?_⟩
        cases pre with
        | nil => rfl
        | cons z zs => rw [List.getLast?_cons_cons, List.getLast?_cons]; rfl
    · rintro ⟨pre, post, hl, rfl⟩
      cases pre with
      | nil =>
        obtain ⟨rfl, rfl⟩ := List.cons_eq_cons.mp hl
        exact Or.inl ⟨rfl, rfl⟩
      | cons z zs =>
        obtain ⟨rfl, rfl⟩ := List.cons_eq_cons.mp hl
        refine Or.inr ⟨zs, post, rfl, ?_⟩
        cases zs with
        | nil => rfl
        | cons w ws => rw [List.getLast?_cons_cons, List.getLast?_cons]; rfl

theorem mem_starts_split : x ∈ starts q l ↔
    ∃ pre post, l = pre ++ x :: post ∧ q x = true ∧ ∀ y ∈ pre.getLast?, q y = false := by
  simp only [starts, List.mem_map, List.mem_filter, Bool.and_eq_true]
  constructor
  · rintro ⟨⟨o, y⟩, ⟨hmem, hq, hprev⟩, rfl⟩
    obtain ⟨pre, post, hl, ho⟩ := mem_withLag.mp hmem
    refine ⟨pre, post, hl, hq, fun z hz => ?_⟩
    rw [Option.or_none] at ho
    subst ho
    rw [Option.mem_def.mp hz] at hprev
    simpa using hprev
  · rintro ⟨pre, post, hl, hq, hprev⟩
    refine ⟨(pre.getLast?, x), ⟨mem_withLag.mpr ⟨pre, post, hl, by rw [Option.or_none]⟩, hq, ?_⟩, rfl⟩
    cases h : pre.getLast? with
    | none => rfl
    | some y => simpa using hprev y h

theorem starts_sublist : (starts q l).Sublist l := by
  have h := (List.filter_sublist (p := fun r : Option α × α => q r.2 && r.1.all fun p => !q p)
    (l := withLag none l)).map (fun r => r.2)
  rwa [withLag_snd] at h

theorem starts_mem (h : x ∈ starts q l) : x ∈ l ∧ q x = true := by
  obtain ⟨pre, post, rfl, hq, -⟩ := mem_starts_split.mp h
  exact ⟨by simp, hq⟩

theorem mem_starts : x ∈ starts q l ↔ ∃ run rest, Island q l (x :: run) rest := by
  rw [mem_starts_split]
  constructor
  · rintro ⟨pre, post, rfl, hq, hprev⟩
    refine ⟨post.takeWhile q, post.dropWhile q, ⟨⟨pre, ?_, hprev⟩, List.cons_ne_nil _ _, ?_, ?_⟩⟩
    · simp [List.takeWhile_append_dropWhile]
    · intro y hy
      rcases List.mem_cons.mp hy with rfl | hy
      · exact hq
      · exact List.mem_takeWhile_imp hy
    · intro y hy
      have := List.head?_dropWhile_not q post
      rw [Option.mem_def.mp hy] at this
      simpa using this
  · rintro ⟨run, rest, ⟨pre, hl, hprev⟩, -, hall, -⟩
    refine ⟨pre, run ++ rest, by rw [hl]; simp, hall x List.mem_cons_self, hprev⟩

theorem exists_island (hx : x ∈ l) (hq : q x = true) : ∃ run rest, Island q l run rest ∧ x ∈ run := by
  obtain ⟨pre, post, rfl⟩ := List.append_of_mem hx
  refine ⟨pre.rtakeWhile q ++ x :: post.takeWhile q, post.dropWhile q,
    ⟨⟨pre.rdropWhile q, ?_, ?_⟩, by simp, ?_, ?_⟩, by simp⟩
  · have hpre : pre.rdropWhile q ++ pre.rtakeWhile q = pre := by
      unfold List.rdropWhile List.rtakeWhile
      rw [← List.reverse_append, List.takeWhile_append_dropWhile, List.reverse_reverse]
    have hpost := List.takeWhile_append_dropWhile (p := q) (l := post)
    calc pre ++ x :: post
        = (pre.rdropWhile q ++ pre.rtakeWhile q) ++ x :: (post.takeWhile q ++ post.dropWhile q) := by
          rw [hpre, hpost]
      _ = _ := by simp only [List.append_assoc, List.cons_append]
  · intro y hy
    have hne : pre.rdropWhile q ≠ [] := by
      intro hnil
      rw [hnil] at hy
      cases hy
    have hlast := List.rdropWhile_last_not q pre hne
    rw [List.getLast?_eq_some_getLast hne, Option.mem_some_iff] at hy
    rw [← hy]
    simpa using hlast
  · intro y hy
    rcases List.mem_append.mp hy with hy | hy
    · exact List.mem_rtakeWhile_imp hy
    · rcases List.mem_cons.mp hy with rfl | hy
      · exact hq
      · exact List.mem_takeWhile_imp hy
  · intro y hy
    have hstop := List.head?_dropWhile_not q post
    rw [Option.mem_def.mp hy] at hstop
    simpa using hstop

end Starts

section Ordered

variable {q : α → Bool} {key : α → ℕ} {l : List α} {x y : α}

theorem firstAfter_eq (hsort : l.Pairwise fun a b => key a < key b) {run rest : List α}
    (h : Island q l (x :: run) rest) : firstAfter q key l x = rest.head? := by
  obtain ⟨⟨pre, rfl, -⟩, -, hall, hstop⟩ := h
  have hsort' : (pre ++ x :: (run ++ rest)).Pairwise fun a b => key a < key b := by simpa using hsort
  have hpre : ∀ y ∈ pre, (!q y && decide (key x < key y)) = false := by
    intro y hy
    have hlt : key y < key x := (List.pairwise_append.mp hsort').2.2 y hy x List.mem_cons_self
    simp [Nat.not_lt.mpr hlt.le]
  have hrun : ∀ y ∈ x :: run, (!q y && decide (key x < key y)) = false := by
    intro y hy
    simp [hall y hy]
  have hempty : ∀ {r : List α}, (∀ y ∈ r, (!q y && decide (key x < key y)) = false) →
      r.filter (fun y => !q y && decide (key x < key y)) = [] := by
    intro r hr
    rw [List.filter_eq_nil_iff]
    intro y hy
    simp [hr y hy]
  unfold firstAfter
  rw [List.filter_append, List.filter_append, hempty hpre, hempty hrun, List.nil_append, List.nil_append]
  cases rest with
  | nil => rfl
  | cons z rest =>
    have hz : key x < key z := by
      have hin := List.pairwise_cons.mp (List.pairwise_append.mp hsort').2.1
      exact hin.1 z (by simp)
    have hq : q z = false := hstop z rfl
    rw [List.filter_cons_of_pos (by simp [hq, hz])]
    rfl

theorem firstAfter_some (h : firstAfter q key l x = some y) : y ∈ l ∧ q y = false ∧ key x < key y := by
  have hy := List.mem_filter.mp (List.mem_of_head? h)
  simpa using hy

theorem firstAfter_none (h : firstAfter q key l x = none) :
    ∀ y ∈ l, key x < key y → q y = true := by
  intro y hy hlt
  rw [firstAfter, List.head?_eq_none_iff, List.filter_eq_nil_iff] at h
  simpa [hlt] using h y hy

theorem firstAfter_least (hsort : l.Pairwise fun a b => key a < key b) (h : firstAfter q key l x = some y)
    {z : α} (hz : z ∈ l) (hq : q z = false) (hlt : key x < key z) : key y ≤ key z := by
  have hmem : z ∈ l.filter fun y => !q y && decide (key x < key y) := by
    rw [List.mem_filter]
    exact ⟨hz, by simp [hq, hlt]⟩
  have hsort' := hsort.filter fun y => !q y && decide (key x < key y)
  unfold firstAfter at h
  cases hf : l.filter fun y => !q y && decide (key x < key y) with
  | nil =>
    rw [hf] at hmem
    cases hmem
  | cons w ws =>
    rw [hf] at h hmem hsort'
    cases h
    rcases List.mem_cons.mp hmem with rfl | hin
    · exact le_rfl
    · exact ((List.pairwise_cons.mp hsort').1 z hin).le

theorem separated (hsort : l.Pairwise fun a b => key a < key b) (hx : x ∈ starts q l) (hy : y ∈ starts q l)
    (hlt : key x < key y) : ∃ z ∈ l, q z = false ∧ key x < key z ∧ key z < key y := by
  obtain ⟨pre, post, rfl, hqy, hprev⟩ := mem_starts_split.mp hy
  obtain ⟨hxl, hqx⟩ := starts_mem hx
  obtain ⟨hpre, hpost, hcross⟩ := List.pairwise_append.mp hsort
  have hxpre : x ∈ pre := by
    rcases List.mem_append.mp hxl with h | h
    · exact h
    · rcases List.mem_cons.mp h with rfl | h
      · omega
      · have := (List.pairwise_cons.mp hpost).1 x h
        omega
  have hne : pre ≠ [] := List.ne_nil_of_mem hxpre
  obtain ⟨init, z, rfl⟩ : ∃ init z, pre = init ++ [z] :=
    ⟨pre.dropLast, pre.getLast hne, (List.dropLast_append_getLast hne).symm⟩
  have hqz : q z = false := hprev z (by simp)
  refine ⟨z, by simp, hqz, ?_, hcross z (by simp) y List.mem_cons_self⟩
  rcases List.mem_append.mp hxpre with h | h
  · exact (List.pairwise_append.mp hpre).2.2 x h z (List.mem_singleton_self z)
  · rw [List.mem_singleton.mp h, hqz] at hqx
    cases hqx

theorem key_inj (hsort : l.Pairwise fun a b => key a < key b) (hx : x ∈ l) (hy : y ∈ l)
    (h : key x = key y) : x = y := by
  refine List.inj_on_of_nodup_map (f := key) ?_ hx hy h
  rw [List.Nodup, List.pairwise_map]
  exact hsort.imp fun hlt => hlt.ne

theorem firstAfter_inj (hsort : l.Pairwise fun a b => key a < key b) (hx : x ∈ starts q l)
    (hy : y ∈ starts q l) {z : α} (h : firstAfter q key l x = some z) (h' : firstAfter q key l y = some z) :
    x = y := by
  -- an earlier start has a gap before the later one, so its first gap comes before that of the other
  have hno : ∀ {a b : α}, a ∈ starts q l → b ∈ starts q l → firstAfter q key l a = some z →
      firstAfter q key l b = some z → ¬ key a < key b := by
    intro a b ha hb hza hzb hlt
    obtain ⟨w, hw, hqw, hgt, hwb⟩ := separated hsort ha hb hlt
    have hle := firstAfter_least hsort hza hw hqw hgt
    have hbz := (firstAfter_some hzb).2.2
    omega
  have h1 := hno hx hy h h'
  have h2 := hno hy hx h' h
  exact key_inj hsort (starts_mem hx).1 (starts_mem hy).1 (by omega)

theorem firstAfter_none_unique (hsort : l.Pairwise fun a b => key a < key b) (hx : x ∈ starts q l)
    (hy : y ∈ starts q l) (h : firstAfter q key l x = none) (h' : firstAfter q key l y = none) : x = y := by
  have hno : ∀ {a b : α}, a ∈ starts q l → b ∈ starts q l → firstAfter q key l a = none →
      ¬ key a < key b := by
    intro a b ha hb hza hlt
    obtain ⟨w, hw, hqw, hgt, -⟩ := separated hsort ha hb hlt
    rw [firstAfter_none hza w hw hgt] at hqw
    cases hqw
  have h1 := hno hx hy h
  have h2 := hno hy hx h'
  exact key_inj hsort (starts_mem hx).1 (starts_mem hy).1 (by omega)

/-- An island reaches the end exactly if the element with the largest key has `q`. -/
theorem exists_firstAfter_none_iff (hsort : l.Pairwise fun a b => key a < key b) :
    (∃ x ∈ starts q l, firstAfter q key l x = none) ↔
      ∃ y ∈ l, q y = true ∧ ∀ z ∈ l, key z ≤ key y := by
  constructor
  · rintro ⟨x, hx, hnone⟩
    obtain ⟨run, rest, hisl⟩ := mem_starts.mp hx
    rw [firstAfter_eq hsort hisl, List.head?_eq_none_iff] at hnone
    subst hnone
    obtain ⟨⟨pre, hl, -⟩, hne, hall, -⟩ := hisl
    rw [List.append_nil] at hl
    obtain ⟨init, y, hrun⟩ : ∃ init y, x :: run = init ++ [y] :=
      ⟨_, _, (List.dropLast_append_getLast hne).symm⟩
    have hl' : l = (pre ++ init) ++ [y] := by rw [hl, hrun, List.append_assoc]
    refine ⟨y, by simp [hl'], hall y (by simp [hrun]), fun z hz => ?_⟩
    rw [hl'] at hz hsort
    rcases List.mem_append.mp hz with h | h
    · exact ((List.pairwise_append.mp hsort).2.2 z h y (List.mem_singleton_self y)).le
    · rw [List.mem_singleton.mp h]
  · rintro ⟨y, hy, hq, hmax⟩
    obtain ⟨run, rest, hisl, hyrun⟩ := exists_island hy hq
    obtain ⟨x, run, rfl⟩ := List.exists_cons_of_ne_nil hisl.nonempty
    refine ⟨x, mem_starts.mpr ⟨run, rest, hisl⟩, ?_⟩
    rw [firstAfter_eq hsort hisl]
    cases rest with
    | nil => rfl
    | cons z rest =>
      obtain ⟨⟨pre, hl, -⟩, -, -, -⟩ := hisl
      rw [hl] at hsort hmax
      have hlt := (List.pairwise_append.mp hsort).2.2 y (List.mem_append_right pre hyrun) z List.mem_cons_self
      have hle := hmax z (by simp)
      omega

theorem Island.takeWhile_eq {run rest : List α} (h : Island q l run rest) :
    (run ++ rest).takeWhile q = run := by
  rw [List.takeWhile_append_of_pos h.all]
  cases hrest : rest with
  | nil => simp
  | cons z rest =>
    have hq : q z = false := h.stop z (by rw [hrest]; rfl)
    simp [hq]

/-- The elements between the start of an island and one of its elements belong to it. -/
theorem Island.convex (hsort : l.Pairwise fun a b => key a < key b) {a z : α} {run rest : List α}
    (h : Island q l (a :: run) rest) (hx : x ∈ a :: run) (hz : z ∈ l) (haz : key a < key z)
    (hzx : key z < key x) : q z = true := by
  obtain ⟨⟨pre, rfl, -⟩, -, hall, -⟩ := h
  have hrest : ∀ w ∈ rest, key x < key w := fun w hw =>
    (List.pairwise_append.mp hsort).2.2 x (List.mem_append_right pre hx) w hw
  have hpre : ∀ w ∈ pre, key w < key a := fun w hw =>
    (List.pairwise_append.mp (List.pairwise_append.mp hsort).1).2.2 w hw a List.mem_cons_self
  rcases List.mem_append.mp hz with hz | hz
  · rcases List.mem_append.mp hz with hz | hz
    · have := hpre z hz
      omega
    · exact hall z hz
  · have := hrest z hz
    omega

theorem island_unique (hsort : l.Pairwise fun a b => key a < key b) {run rest run' rest' : List α}
    (h : Island q l run rest) (h' : Island q l run' rest') (hx : x ∈ run) (hx' : x ∈ run') :
    run = run' ∧ rest = rest' := by
  obtain ⟨a, run, rfl⟩ := List.exists_cons_of_ne_nil h.nonempty
  obtain ⟨b, run', rfl⟩ := List.exists_cons_of_ne_nil h'.nonempty
  have ha : a ∈ starts q l := mem_starts.mpr ⟨run, rest, h⟩
  have hb : b ∈ starts q l := mem_starts.mpr ⟨run', rest', h'⟩
  have hle : ∀ {c : α} {r t : List α}, Island q l (c :: r) t → x ∈ c :: r → key c ≤ key x := by
    intro c r t hc hin
    rcases List.mem_cons.mp hin with rfl | hin
    · exact le_rfl
    · obtain ⟨⟨pre, hl, -⟩, -, -, -⟩ := hc
      rw [hl] at hsort
      have hcr := (List.pairwise_append.mp (List.pairwise_append.mp hsort).1).2.1
      exact ((List.pairwise_cons.mp hcr).1 x hin).le
  -- a gap between the two starts would lie inside the island of the first
  have hnot : ∀ {c d : α} {r t : List α}, c ∈ starts q l → d ∈ starts q l → Island q l (c :: r) t →
      x ∈ c :: r → key d ≤ key x → ¬ key c < key d := by
    intro c d r t hc hd hisl hin hdx hlt
    obtain ⟨z, hz, hqz, hcz, hzd⟩ := separated hsort hc hd hlt
    rw [hisl.convex hsort hin hz hcz (by omega)] at hqz
    cases hqz
  have h1 := hnot ha hb h hx (hle h' hx')
  have h2 := hnot hb ha h' hx' (hle h hx)
  have hab : a = b := key_inj hsort (starts_mem ha).1 (starts_mem hb).1 (by omega)
  subst hab
  obtain ⟨⟨pre, hl, -⟩, -, -, -⟩ := id h
  obtain ⟨⟨pre', hl', -⟩, -, -, -⟩ := id h'
  have hnodup : (pre ++ a :: (run ++ rest)).Nodup := by
    have hsort' : (pre ++ a :: (run ++ rest)).Pairwise fun a b => key a < key b := by
      rw [hl] at hsort
      simpa using hsort
    exact hsort'.imp fun hlt heq => by
      rw [heq] at hlt
      exact lt_irrefl _ hlt
  have hsplit : pre ++ a :: (run ++ rest) = pre' ++ a :: (run' ++ rest') := by
    rw [hl] at hl'
    simpa using hl'
  obtain ⟨-, -, hdisj⟩ := List.nodup_append.mp hnodup
  have hpre : a ∉ pre := fun hin => hdisj a hin a List.mem_cons_self rfl
  have hpost : a ∉ run ++ rest := (List.nodup_cons.mp (List.nodup_append.mp hnodup).2.1).1
  obtain ⟨-, -, heq⟩ := (List.append_cons_inj_of_notMem hpre hpost).mp hsplit
  have hrun : a :: run = a :: run' := by
    rw [← h.takeWhile_eq, ← h'.takeWhile_eq, List.cons_append, List.cons_append, heq]
  refine ⟨hrun, ?_⟩
  rw [(List.cons_eq_cons.mp hrun).2] at heq
  exact List.append_cancel_left heq

theorem runAfter_eq (hsort : l.Pairwise fun a b => key a < key b) {run rest : List α}
    (h : Island q l (x :: run) rest) : runAfter q key l x = run := by
  obtain ⟨⟨pre, hl, -⟩, -, hall, hstop⟩ := id h
  have hsort' : (pre ++ x :: (run ++ rest)).Pairwise fun a b => key a < key b := by
    rw [hl] at hsort
    simpa using hsort
  obtain ⟨-, hxs, hcross⟩ := List.pairwise_append.mp hsort'
  have hpost : l.filter (fun y => decide (key x < key y)) = run ++ rest := by
    rw [hl, List.append_assoc, List.filter_append, List.cons_append, List.filter_cons_of_neg (by simp)]
    have hpre : pre.filter (fun y => decide (key x < key y)) = [] := by
      rw [List.filter_eq_nil_iff]
      intro y hy
      have hlt := hcross y hy x List.mem_cons_self
      simp [hlt.le]
    rw [hpre, List.nil_append, List.filter_eq_self]
    intro y hy
    simpa using (List.pairwise_cons.mp hxs).1 y hy
  have hrun := h.takeWhile_eq
  rw [List.cons_append, List.takeWhile_cons_of_pos (hall x List.mem_cons_self)] at hrun
  rw [runAfter, hpost]
  exact (List.cons_eq_cons.mp hrun).2

end Ordered

end TeamInbox.Lib
