import Mathlib.Data.List.Basic
import Mathlib.Data.List.Pairwise

/-!
# TeamInbox.Lib.Indexed — tables with unique indexes

An index gives a row its key, or `none` where the row is not in the index (a null column, the predicate of a partial
index).  An `Indexed` table keeps that no two of its rows have one key.  A statement that would break this fails and
leaves no table: `insert` and `update` return `none`.  Where a statement cannot break it, `set` needs no check.
-/

namespace TeamInbox.Lib

variable {α κ : Type}

/-- The rows do not have one key. -/
def Apart (key : α → Option κ) (a b : α) : Prop := key a = none ∨ key a ≠ key b

theorem Apart.symm {key : α → Option κ} {a b : α} (h : Apart key a b) : Apart key b a := by
  rcases h with h | h
  · cases hb : key b with
    | none => exact .inl hb
    | some k => exact .inr (by rw [h, hb]; exact nofun)
  · exact .inr (Ne.symm h)

instance (key : α → Option κ) : Std.Symm (Apart key) := ⟨fun _ _ => Apart.symm⟩

theorem Apart.not_both {key : α → Option κ} {a b : α} {k : κ} (h : Apart key a b) (ha : key a = some k) :
    key b ≠ some k := by
  rcases h with h | h
  · exact absurd (h.symm.trans ha) nofun
  · exact fun hb => h (ha.trans hb.symm)

theorem apart_of_ne {key : α → Option κ} {a b : α} (h : ∀ k, key a = some k → key b ≠ some k) : Apart key a b := by
  cases ha : key a with
  | none => exact .inl ha
  | some k => exact .inr fun heq => h k ha (heq.symm.trans ha)

instance [DecidableEq κ] (key : α → Option κ) (a b : α) : Decidable (Apart key a b) :=
  inferInstanceAs (Decidable (key a = none ∨ key a ≠ key b))

def Unique (key : α → Option κ) (rows : List α) : Prop := rows.Pairwise (Apart key)

instance [DecidableEq κ] (key : α → Option κ) (rows : List α) : Decidable (Unique key rows) :=
  inferInstanceAs (Decidable (rows.Pairwise (Apart key)))

theorem Unique.eq {key : α → Option κ} {rows : List α} (h : Unique key rows) {a b : α} {k : κ} (ha : a ∈ rows)
    (hb : b ∈ rows) (hka : key a = some k) (hkb : key b = some k) : a = b := by
  by_contra hne
  exact (List.Pairwise.forall h ha hb hne).not_both hka hkb

theorem pairwise_all {indexes : List (α → Option κ)} {rows : List α} (h : ∀ key ∈ indexes, Unique key rows) :
    rows.Pairwise fun a b => ∀ key ∈ indexes, Apart key a b := by
  induction rows with
  | nil => exact List.Pairwise.nil
  | cons a rows ih =>
    refine List.pairwise_cons.mpr ⟨fun b hb key hkey => ?_, ih fun key hkey => (List.pairwise_cons.mp (h key hkey)).2⟩
    exact (List.pairwise_cons.mp (h key hkey)).1 b hb

structure Indexed (indexes : List (α → Option κ)) where
  rows : List α
  unique : ∀ key ∈ indexes, Unique key rows

namespace Indexed

variable {indexes : List (α → Option κ)}

def empty : Indexed indexes := ⟨[], fun _ _ => List.Pairwise.nil⟩

/-- What an update makes of a row. -/
def changed (p : α → Bool) (f : α → α) (a : α) : α := if p a then f a else a

/-- The statement takes no key from a row but to drop it. -/
def Keeps (indexes : List (α → Option κ)) (p : α → Bool) (f : α → α) : Prop :=
  ∀ key ∈ indexes, ∀ a, p a = true → key (f a) = key a ∨ key (f a) = none

theorem Keeps.changed {p : α → Bool} {f : α → α} (h : Keeps indexes p f) {key : α → Option κ} (hkey : key ∈ indexes)
    (a : α) : key (changed p f a) = key a ∨ key (changed p f a) = none := by
  unfold Indexed.changed
  split_ifs with hp
  · exact h key hkey a hp
  · exact .inl rfl

theorem changed_pos {p : α → Bool} {f : α → α} {a : α} (h : p a = true) : changed p f a = f a := if_pos h

theorem changed_neg {p : α → Bool} {f : α → α} {a : α} (h : ¬ p a = true) : changed p f a = a := if_neg h

theorem filter_changed {p q : α → Bool} {f : α → α} {rows : List α}
    (h : ∀ a ∈ rows, p a = true → q a = false ∧ q (f a) = false) : (rows.map (changed p f)).filter q = rows.filter q := by
  induction rows with
  | nil => rfl
  | cons a rows ih =>
    have ih := ih fun b hb => h b (List.mem_cons_of_mem a hb)
    rw [List.map_cons]
    by_cases hp : p a = true
    · obtain ⟨hold, hnew⟩ := h a List.mem_cons_self hp
      rw [changed_pos hp, List.filter_cons_of_neg (by rw [hnew]; exact Bool.false_ne_true),
        List.filter_cons_of_neg (by rw [hold]; exact Bool.false_ne_true), ih]
    · rw [changed_neg hp, List.filter_cons, List.filter_cons, ih]

theorem find?_changed {p q : α → Bool} {f : α → α} (h : ∀ a, p a = true → q (f a) = q a) (rows : List α) :
    (rows.map (changed p f)).find? q = (rows.find? q).map (changed p f) := by
  rw [List.find?_map]
  congr 1
  refine congrArg (fun q => List.find? q rows) (funext fun a => ?_)
  show q (changed p f a) = q a
  unfold changed
  split_ifs with hp
  · exact h a hp
  · rfl

theorem apart_changed {key : α → Option κ} {g : α → α} (hg : ∀ a, key (g a) = key a ∨ key (g a) = none) {a b : α}
    (h : Apart key a b) : Apart key (g a) (g b) := by
  refine apart_of_ne fun k ha hb => ?_
  have ha' : key a = some k := (hg a).elim (fun heq => heq.symm.trans ha) fun hnone => nomatch hnone.symm.trans ha
  have hb' : key b = some k := (hg b).elim (fun heq => heq.symm.trans hb) fun hnone => nomatch hnone.symm.trans hb
  exact h.not_both ha' hb'

/-- An update that keeps the keys. -/
def set (t : Indexed indexes) (p : α → Bool) (f : α → α) (h : Keeps indexes p f) : Indexed indexes where
  rows := t.rows.map (changed p f)
  unique := fun key hkey => (List.Pairwise.map _ (fun _ _ hab => apart_changed (h.changed hkey) hab) (t.unique key hkey))

@[simp] theorem rows_set (t : Indexed indexes) (p : α → Bool) (f : α → α) (h : Keeps indexes p f) :
    (t.set p f h).rows = t.rows.map (changed p f) := rfl

section Statements

variable [DecidableEq κ]

def ofRows (rows : List α) : Option (Indexed indexes) :=
  if h : ∀ key ∈ indexes, Unique key rows then some ⟨rows, h⟩ else none

theorem ofRows_eq_some {rows : List α} {t : Indexed indexes} (h : ofRows rows = some t) : t.rows = rows := by
  unfold ofRows at h
  split_ifs at h
  rw [← Option.some.inj h]

theorem ofRows_isSome {rows : List α} : (ofRows rows : Option (Indexed indexes)).isSome ↔ ∀ key ∈ indexes, Unique key rows := by
  unfold ofRows
  split_ifs with h
  · exact ⟨fun _ => h, fun _ => rfl⟩
  · exact ⟨fun hsome => (nomatch hsome), fun hall => absurd hall h⟩

/-- `INSERT` -/
def insert (t : Indexed indexes) (a : α) : Option (Indexed indexes) := ofRows (a :: t.rows)

/-- `UPDATE` -/
def update (t : Indexed indexes) (p : α → Bool) (f : α → α) : Option (Indexed indexes) :=
  ofRows (t.rows.map (changed p f))

/-- The row conflicts with one that is there. -/
def conflicts (arbiter : α → Option κ) (t : Indexed indexes) (a : α) : Bool :=
  (arbiter a).isSome && t.rows.any fun b => decide (arbiter b = arbiter a)

/-- `INSERT … ON CONFLICT (arbiter) DO NOTHING`, with whether the row has been inserted. -/
def insertUnless (arbiter : α → Option κ) (t : Indexed indexes) (a : α) : Option (Indexed indexes × Bool) :=
  if conflicts arbiter t a then some (t, false) else (t.insert a).map fun t => (t, true)

theorem rows_insert {t t' : Indexed indexes} {a : α} (h : t.insert a = some t') : t'.rows = a :: t.rows :=
  ofRows_eq_some h

theorem rows_update {t t' : Indexed indexes} {p : α → Bool} {f : α → α} (h : t.update p f = some t') :
    t'.rows = t.rows.map (changed p f) := ofRows_eq_some h

/-- **A row can be inserted where none of its keys is taken.** -/
theorem insert_isSome {t : Indexed indexes} {a : α} :
    (t.insert a).isSome ↔ ∀ key ∈ indexes, ∀ k, key a = some k → ∀ b ∈ t.rows, key b ≠ some k := by
  unfold insert
  rw [ofRows_isSome]
  refine forall₂_congr fun key hkey => ?_
  unfold Unique
  rw [List.pairwise_cons]
  constructor
  · rintro ⟨hfirst, -⟩ k ha b hb
    exact (hfirst b hb).not_both ha
  · intro h
    exact ⟨fun b hb => apart_of_ne fun k ha => h k ha b hb, t.unique key hkey⟩

/-- **An update succeeds where rows that were apart by every index stay so.** -/
theorem update_isSome {t : Indexed indexes} {p : α → Bool} {f : α → α}
    (h : ∀ key ∈ indexes, ∀ a ∈ t.rows, ∀ b ∈ t.rows, (∀ key' ∈ indexes, Apart key' a b) →
      Apart key (changed p f a) (changed p f b)) : (t.update p f).isSome := by
  unfold update
  rw [ofRows_isSome]
  intro key hkey
  exact List.pairwise_map.mpr ((pairwise_all t.unique).imp_of_mem fun {a b} ha hb hab => h key hkey a ha b hb hab)

theorem update_apart {t t' : Indexed indexes} {p : α → Bool} {f : α → α} (h : t.update p f = some t')
    {key : α → Option κ} (hkey : key ∈ indexes) {a b : α} (ha : a ∈ t.rows) (hb : b ∈ t.rows) (hne : a ≠ b) :
    Apart key (changed p f a) (changed p f b) := by
  have hunique := t'.unique key hkey
  rw [rows_update h] at hunique
  have hsymm : Std.Symm fun a b => Apart key (changed p f a) (changed p f b) := ⟨fun _ _ => Apart.symm⟩
  exact List.Pairwise.forall (List.pairwise_map.mp hunique) ha hb hne

/-- **Giving a key to rows without one** succeeds where it goes to one row at most and no other has it. -/
theorem update_key_isSome {t : Indexed indexes} {p : α → Bool} {f : α → α} {key : α → Option κ} {k : κ}
    (hkey : key ∈ indexes)
    (hkeep : ∀ key' ∈ indexes, key' = key ∨ ∀ a, p a = true → key' (f a) = key' a ∨ key' (f a) = none)
    (hold : ∀ a, p a = true → key a = none) (hnew : ∀ a, p a = true → key (f a) = some k ∨ key (f a) = none)
    (hone : ∀ a b, p a = true → p b = true → key (f a) = some k → key (f b) = some k →
      (∀ key' ∈ indexes, Apart key' a b) → False) :
    (t.update p f).isSome ↔ ∀ a ∈ t.rows, p a = true → key (f a) = some k → ∀ b ∈ t.rows, key b ≠ some k := by
  constructor
  · intro hsome a ha hpa hka b hb hkb
    obtain ⟨t', ht'⟩ := Option.isSome_iff_exists.mp hsome
    have hpb : ¬ p b = true := fun hpb => nomatch (hold b hpb).symm.trans hkb
    have hne : a ≠ b := fun heq => hpb (heq ▸ hpa)
    have hapart := update_apart ht' hkey ha hb hne
    rw [changed_pos hpa, changed_neg hpb] at hapart
    exact hapart.not_both hka hkb
  · intro hfree
    have hgiven : ∀ a, p a = true → ∀ k', key (f a) = some k' → k' = k := fun a hpa k' hk' =>
      (hnew a hpa).elim (fun h => Option.some.inj (hk'.symm.trans h)) fun h => nomatch hk'.symm.trans h
    refine update_isSome fun key' hkey' a ha b hb hall => ?_
    rcases hkeep key' hkey' with rfl | hkeep
    · refine apart_of_ne fun k' hka hkb => ?_
      by_cases hpa : p a = true
      · rw [changed_pos hpa] at hka
        obtain rfl := hgiven a hpa k' hka
        by_cases hpb : p b = true
        · rw [changed_pos hpb] at hkb
          exact hone a b hpa hpb hka hkb hall
        · rw [changed_neg hpb] at hkb
          exact hfree a ha hpa hka b hb hkb
      · rw [changed_neg hpa] at hka
        by_cases hpb : p b = true
        · rw [changed_pos hpb] at hkb
          obtain rfl := hgiven b hpb k' hkb
          exact hfree b hb hpb hkb a ha hka
        · rw [changed_neg hpb] at hkb
          exact (hall _ hkey').not_both hka hkb
    · refine apart_changed (fun c => ?_) (hall key' hkey')
      by_cases hpc : p c = true
      · rw [changed_pos hpc]
        exact hkeep c hpc
      · rw [changed_neg hpc]
        exact .inl rfl

end Statements

end Indexed

end TeamInbox.Lib
