import Mathlib.Data.List.Sort
import Mathlib.Data.List.Pairwise

/-!
# TeamInbox.Lib.Keyset — listings cut at a key

Rows with pairwise different keys of a linear order have one listing from the newest to the oldest
(`Descending.eq_of_mem_iff`).  A page of it can be read from limited scans of two parts of the rows
(`take_merged`), what comes after a row is selected by its key (`filter_lt_key`), and a reader who follows the
cursors of the pages gets the whole listing (`follow_serves`).
-/

namespace TeamInbox.Lib

/-! ### The listing -/

section Listing

variable {α κ : Type} {key : α → κ} {rows : List α}

theorem nodup_keys_filter (p : α → Bool) (h : (rows.map key).Nodup) : ((rows.filter p).map key).Nodup :=
  h.sublist (List.Sublist.map key List.filter_sublist)

variable [LinearOrder κ] (key)

def Descending (l : List α) : Prop := l.Pairwise fun a b => key b < key a

def newestFirst (rows : List α) : List α := rows.mergeSort fun a b => decide (key b ≤ key a)

variable {key} {l l' : List α} {p q : α → Bool} {k : ℕ}

theorem Descending.nodup (h : Descending key l) : l.Nodup :=
  List.Pairwise.imp (fun hlt heq => (lt_irrefl _ (heq ▸ hlt)).elim) h

theorem Descending.eq_of_mem_iff (h : Descending key l) (h' : Descending key l') (hmem : ∀ a, a ∈ l ↔ a ∈ l') : l = l' := by
  have hperm : l.Perm l' := (List.perm_ext_iff_of_nodup h.nodup h'.nodup).mpr hmem
  exact hperm.eq_of_pairwise (fun a b _ _ hab hba => absurd hab (lt_asymm hba)) h h'

theorem mem_newestFirst {a : α} : a ∈ newestFirst key rows ↔ a ∈ rows := List.mem_mergeSort

theorem descending_newestFirst (h : (rows.map key).Nodup) : Descending key (newestFirst key rows) := by
  have hle : (newestFirst key rows).Pairwise fun a b => decide (key b ≤ key a) = true := by
    refine List.pairwise_mergeSort (fun a b c hab hbc => ?_) (fun a b => ?_) rows
    · simp only [decide_eq_true_eq] at hab hbc ⊢
      exact le_trans hbc hab
    · simpa using le_total (key b) (key a)
  have hne : (newestFirst key rows).Pairwise fun a b => key a ≠ key b := by
    have hperm : ((newestFirst key rows).map key).Perm (rows.map key) := (List.mergeSort_perm rows _).map key
    exact List.pairwise_map.mp (hperm.nodup_iff.mpr h)
  refine List.Pairwise.imp₂ (fun a b hab hn => ?_) hle hne
  exact lt_of_le_of_ne (by simpa using hab) (Ne.symm hn)

theorem newestFirst_filter (h : (rows.map key).Nodup) : newestFirst key (rows.filter p) = (newestFirst key rows).filter p := by
  refine (descending_newestFirst (nodup_keys_filter p h)).eq_of_mem_iff (List.Pairwise.filter p (descending_newestFirst h)) ?_
  intro a
  simp [mem_newestFirst, List.mem_filter]

/-! ### What comes after a row -/

theorem filter_lt_key {before after : List α} {c : α} (h : Descending key (before ++ c :: after)) :
    (before ++ c :: after).filter (fun a => decide (key a < key c)) = after := by
  unfold Descending at h
  rw [List.pairwise_append] at h
  obtain ⟨-, hafter, hcross⟩ := h
  have hbefore : before.filter (fun a => decide (key a < key c)) = [] := by
    refine List.filter_eq_nil_iff.mpr (fun a ha => ?_)
    have hlt := hcross a ha c List.mem_cons_self
    simpa using hlt.le
  have hrest : after.filter (fun a => decide (key a < key c)) = after := by
    refine List.filter_eq_self.mpr (fun a ha => ?_)
    simpa using (List.pairwise_cons.mp hafter).1 a ha
  rw [List.filter_append, hbefore, List.nil_append, List.filter_cons_of_neg (by simp), hrest]

/-! ### Limited scans -/

theorem take_filter_of_take (r : α → Bool) (h : ∀ a ∈ l.take k, r a = true) : (l.filter r).take k = l.take k := by
  have hsplit : l.filter r = l.take k ++ (l.drop k).filter r := by
    conv_lhs => rw [← List.take_append_drop k l]
    rw [List.filter_append, List.filter_eq_self.mpr h]
  rw [hsplit]
  rcases Nat.lt_or_ge l.length k with hshort | hlong
  · have hdrop : l.drop k = [] := List.drop_eq_nil_of_le hshort.le
    rw [hdrop, List.filter_nil, List.append_nil, List.take_take, min_self]
  · have hlen : (l.take k).length = k := by rw [List.length_take]; omega
    rw [List.take_append_of_le_length hlen.ge, List.take_take, min_self]

/-- The first rows of a listing that a selection keeps are among the first rows of the selection. -/
theorem filter_take_subset (l : List α) (k : ℕ) (p : α → Bool) : (l.take k).filter p ⊆ (l.filter p).take k := by
  have hstart : (l.take k).filter p <+: l.filter p := (List.take_prefix k l).filter p
  have hlen : ((l.take k).filter p).length ≤ k :=
    (List.length_filter_le p (l.take k)).trans (List.length_take_le k l)
  rw [List.prefix_iff_eq_take.mp hstart]
  exact (List.take_sublist_take_left hlen).subset

/-- **Two limited scans.**  The first rows of the merged scans are the first rows of the listing. -/
theorem take_merged (h : (rows.map key).Nodup) (hpq : ∀ a ∈ rows, ¬ (p a = true ∧ q a = true)) :
    (newestFirst key ((newestFirst key (rows.filter p)).take k ++ (newestFirst key (rows.filter q)).take k)).take k =
      (newestFirst key (rows.filter fun a => p a || q a)).take k := by
  set left := (newestFirst key (rows.filter p)).take k with hleft
  set right := (newestFirst key (rows.filter q)).take k with hright
  set whole := newestFirst key (rows.filter fun a => p a || q a) with hwhole
  have hwholed : Descending key whole := descending_newestFirst (nodup_keys_filter _ h)
  have hpart : ∀ {r : α → Bool}, (∀ a, r a = true → (p a || q a) = true) →
      newestFirst key (rows.filter r) = whole.filter r := by
    intro r hr
    rw [hwhole, ← newestFirst_filter (nodup_keys_filter _ h), List.filter_filter]
    refine congrArg (newestFirst key) (List.filter_congr fun a _ => ?_)
    cases hra : r a with
    | false => rw [Bool.false_and]
    | true => rw [hr a hra, Bool.true_and]
  have hmemp : ∀ a ∈ left, a ∈ rows ∧ p a = true := fun a ha =>
    List.mem_filter.mp (mem_newestFirst.mp ((List.take_subset k _) ha))
  have hmemq : ∀ a ∈ right, a ∈ rows ∧ q a = true := fun a ha =>
    List.mem_filter.mp (mem_newestFirst.mp ((List.take_subset k _) ha))
  -- the keys of the merged rows are different: each scan is of other rows
  have hkeys : ((left ++ right).map key).Nodup := by
    have hscan : ∀ r : α → Bool, (((newestFirst key (rows.filter r)).take k).map key).Nodup := fun r => by
      have hperm := (List.mergeSort_perm (rows.filter r) fun a b => decide (key b ≤ key a)).map key
      exact (hperm.nodup_iff.mpr (nodup_keys_filter r h)).sublist ((List.take_sublist k _).map key)
    rw [List.map_append, List.nodup_append]
    refine ⟨hscan p, hscan q, fun x hx y hy hxy => ?_⟩
    obtain ⟨a, ha, rfl⟩ := List.mem_map.mp hx
    obtain ⟨b, hb, rfl⟩ := List.mem_map.mp hy
    have hab : a = b := List.inj_on_of_nodup_map h (hmemp a ha).1 (hmemq b hb).1 hxy
    exact hpq a (hmemp a ha).1 ⟨(hmemp a ha).2, hab ▸ (hmemq b hb).2⟩
  have hmerged : newestFirst key (left ++ right) = whole.filter fun a => decide (key a ∈ (left ++ right).map key) := by
    refine (descending_newestFirst hkeys).eq_of_mem_iff (List.Pairwise.filter _ hwholed) (fun a => ?_)
    rw [mem_newestFirst, List.mem_filter, hwhole, mem_newestFirst, List.mem_filter, decide_eq_true_eq]
    constructor
    · intro ha
      refine ⟨?_, List.mem_map_of_mem ha⟩
      rcases List.mem_append.mp ha with ha | ha
      · exact ⟨(hmemp a ha).1, by simp [(hmemp a ha).2]⟩
      · exact ⟨(hmemq a ha).1, by simp [(hmemq a ha).2]⟩
    · rintro ⟨⟨harows, -⟩, hkey⟩
      obtain ⟨b, hb, hba⟩ := List.mem_map.mp hkey
      have hbrows : b ∈ rows := (List.mem_append.mp hb).elim (fun hb => (hmemp b hb).1) (fun hb => (hmemq b hb).1)
      exact List.inj_on_of_nodup_map h hbrows harows hba ▸ hb
  rw [hmerged]
  refine take_filter_of_take _ (fun a ha => decide_eq_true (List.mem_map_of_mem ?_))
  have hselected := (List.mem_filter.mp (mem_newestFirst.mp ((List.take_subset k whole) ha))).2
  rcases (Bool.or_eq_true _ _).mp hselected with hpa | hqa
  · refine List.mem_append_left _ ?_
    rw [hleft, hpart fun a ha => by simp [ha]]
    exact filter_take_subset whole k p (List.mem_filter.mpr ⟨ha, hpa⟩)
  · refine List.mem_append_right _ ?_
    rw [hright, hpart fun a ha => by simp [ha]]
    exact filter_take_subset whole k q (List.mem_filter.mpr ⟨ha, hqa⟩)

end Listing

/-! ### Following the cursors -/

section Follow

variable {α P C : Type} (rowsOf : P → List α) (hasMore : P → Bool) (next : P → Option C) (fetch : Option C → Option P)

/-- The pages from a cursor on, as long as there is a further one; none if a page is refused or the fuel runs out. -/
def follow : ℕ → Option C → Option (List P)
  | 0, _ => none
  | fuel + 1, cursor =>
    match fetch cursor with
    | none => none
    | some page =>
      if hasMore page = true then (follow fuel (next page)).map (page :: ·) else some [page]

/-- The page is the first `n` rows of the list. -/
structure Cuts (code : α → C) (n : ℕ) (page : P) (l : List α) : Prop where
  rows : rowsOf page = l.take n
  more : hasMore page = true ↔ n < l.length
  cursor : next page = (l.take n).getLast?.map code

/-- Every cursor of a row gives the page after this row. -/
structure Serves (code : α → C) (n : ℕ) (l : List α) : Prop where
  first : ∃ page, fetch none = some page ∧ Cuts rowsOf hasMore next code n page l
  after : ∀ before c rest, l = before ++ c :: rest →
    ∃ page, fetch (some (code c)) = some page ∧ Cuts rowsOf hasMore next code n page rest

variable {rowsOf hasMore next fetch} {code : α → C} {n : ℕ} {l : List α}

theorem follow_of_serves (h : Serves rowsOf hasMore next fetch code n l) (hn : 0 < n) (fuel : ℕ) :
    ∀ (cursor : Option C) (before rest : List α), l = before ++ rest → rest.length < fuel →
      (∃ page, fetch cursor = some page ∧ Cuts rowsOf hasMore next code n page rest) →
      ∃ pages, follow hasMore next fetch fuel cursor = some pages ∧ pages.flatMap rowsOf = rest ∧
        ∀ pre page post, pages = pre ++ page :: post → (hasMore page = true ↔ post.flatMap rowsOf ≠ []) := by
  induction fuel with
  | zero => exact fun _ _ _ _ hlt _ => absurd hlt (Nat.not_lt_zero _)
  | succ fuel ih =>
    rintro cursor before rest hl hlen ⟨page, hfetch, hcut⟩
    by_cases hmore : hasMore page = true
    · -- the next page starts after the last row of this one
      have hlong : n < rest.length := hcut.more.mp hmore
      have hpage : rest.take n ≠ [] := fun hnil => by
        have hlen0 := congrArg List.length hnil
        rw [List.length_take, List.length_nil] at hlen0
        omega
      have hlast : rest.take n = (rest.take n).dropLast ++ [(rest.take n).getLast hpage] :=
        (List.dropLast_append_getLast hpage).symm
      have hnext : next page = some (code ((rest.take n).getLast hpage)) := by
        rw [hcut.cursor, List.getLast?_eq_getLast_of_ne_nil hpage, Option.map_some]
      have hsplit : l = (before ++ (rest.take n).dropLast) ++ (rest.take n).getLast hpage :: rest.drop n := by
        conv_lhs => rw [hl, ← List.take_append_drop n rest, hlast]
        simp
      have hdrop : (rest.drop n).length < fuel := by
        rw [List.length_drop]
        omega
      obtain ⟨pages, hfollow, hall, hmores⟩ := ih (next page) (before ++ rest.take n) (rest.drop n)
        (by rw [hl, List.append_assoc, List.take_append_drop]) hdrop (hnext ▸ h.after _ _ _ hsplit)
      refine ⟨page :: pages, ?_, ?_, ?_⟩
      · simp only [follow, hfetch, if_pos hmore, hfollow, Option.map_some]
      · rw [List.flatMap_cons, hcut.rows, hall, List.take_append_drop]
      · intro pre p post hpages
        cases pre with
        | nil =>
          obtain ⟨rfl, rfl⟩ := List.cons.inj hpages
          refine iff_of_true hmore (fun hnil => ?_)
          rw [hall] at hnil
          have hlen0 := congrArg List.length hnil
          rw [List.length_drop, List.length_nil] at hlen0
          omega
        | cons q pre => exact hmores pre p post (List.cons.inj hpages).2
    · have hshort : rest.length ≤ n := Nat.le_of_not_lt fun hlt => hmore (hcut.more.mpr hlt)
      refine ⟨[page], ?_, ?_, ?_⟩
      · simp only [follow, hfetch, if_neg hmore]
      · rw [List.flatMap_cons, List.flatMap_nil, List.append_nil, hcut.rows, List.take_of_length_le hshort]
      · intro pre p post hpages
        have hpost : pre = [] ∧ p = page ∧ post = [] := by
          cases pre with
          | nil =>
            obtain ⟨rfl, rfl⟩ := List.cons.inj hpages
            exact ⟨rfl, rfl, rfl⟩
          | cons q pre => exact absurd (List.cons.inj hpages).2 (by simp)
        rw [hpost.2.1, hpost.2.2]
        exact iff_of_false hmore (fun hne => hne rfl)

/-- **Following the cursors.**  With fuel for the rows the pages make up the list, and a page says that there is a
further one if and only if rows are left. -/
theorem follow_serves (h : Serves rowsOf hasMore next fetch code n l) (hn : 0 < n) {fuel : ℕ} (hfuel : l.length < fuel) :
    ∃ pages, follow hasMore next fetch fuel none = some pages ∧ pages.flatMap rowsOf = l ∧
      ∀ pre page post, pages = pre ++ page :: post → (hasMore page = true ↔ post.flatMap rowsOf ≠ []) :=
  follow_of_serves h hn fuel none [] l rfl hfuel h.first

end Follow

end TeamInbox.Lib
