import Mathlib.Logic.Function.Basic
import Mathlib.Data.Nat.Notation

/-!
# TeamInbox.Lib.Forest — parent links

`parent : α → Option α` gives every node its link upwards.  `climb parent n a` follows `n` links from `a`, and
`RootAt parent n a r` says that they end in the root `r`.  The links are a forest if they lead from every node to a
root: there is no cycle and no endless chain.  A root may be linked to another root, and any link may be cut.
-/

namespace TeamInbox.Lib

variable {α : Type} (parent : α → Option α)

/-- Follow `n` links. -/
def climb : ℕ → α → Option α
  | 0, a => some a
  | n + 1, a => (parent a).bind (climb n)

/-- `n` links lead from `a` to the root `r`. -/
def RootAt (n : ℕ) (a r : α) : Prop := climb parent n a = some r ∧ parent r = none

def Forest : Prop := ∀ a, ∃ n r, RootAt parent n a r

variable {parent}

theorem climb_succ {n : ℕ} {a c : α} : climb parent (n + 1) a = some c ↔ ∃ b, parent a = some b ∧ climb parent n b = some c :=
  Option.bind_eq_some_iff

theorem climb_succ' {n : ℕ} {a c : α} : climb parent (n + 1) a = some c ↔ ∃ b, climb parent n a = some b ∧ parent b = some c := by
  induction n generalizing a with
  | zero =>
    constructor
    · intro h
      obtain ⟨b, hb, hc⟩ := climb_succ.mp h
      obtain rfl := Option.some.inj hc
      exact ⟨a, rfl, hb⟩
    · rintro ⟨b, hb, hc⟩
      obtain rfl := Option.some.inj hb
      exact climb_succ.mpr ⟨c, hc, rfl⟩
  | succ n ih =>
    constructor
    · intro h
      obtain ⟨b, hb, hc⟩ := climb_succ.mp h
      obtain ⟨d, hd, hlast⟩ := ih.mp hc
      exact ⟨d, climb_succ.mpr ⟨b, hb, hd⟩, hlast⟩
    · rintro ⟨d, hd, hlast⟩
      obtain ⟨b, hb, hrest⟩ := climb_succ.mp hd
      exact climb_succ.mpr ⟨b, hb, ih.mpr ⟨d, hrest, hlast⟩⟩

theorem rootAt_zero {a r : α} : RootAt parent 0 a r ↔ a = r ∧ parent a = none := by
  constructor
  · rintro ⟨h, hr⟩
    obtain rfl := Option.some.inj h
    exact ⟨rfl, hr⟩
  · rintro ⟨rfl, hr⟩
    exact ⟨rfl, hr⟩

theorem rootAt_succ {n : ℕ} {a r : α} : RootAt parent (n + 1) a r ↔ ∃ b, parent a = some b ∧ RootAt parent n b r := by
  constructor
  · rintro ⟨h, hr⟩
    obtain ⟨b, hb, hrest⟩ := climb_succ.mp h
    exact ⟨b, hb, hrest, hr⟩
  · rintro ⟨b, hb, hrest, hr⟩
    exact ⟨climb_succ.mpr ⟨b, hb, hrest⟩, hr⟩

theorem RootAt.unique {n m : ℕ} {a r r' : α} (h : RootAt parent n a r) (h' : RootAt parent m a r') : n = m ∧ r = r' := by
  induction n generalizing a m with
  | zero =>
    obtain ⟨rfl, hnone⟩ := rootAt_zero.mp h
    cases m with
    | zero => exact ⟨rfl, (rootAt_zero.mp h').1⟩
    | succ m =>
      obtain ⟨b, hb, -⟩ := rootAt_succ.mp h'
      rw [hnone] at hb
      exact nomatch hb
  | succ n ih =>
    obtain ⟨b, hb, hrest⟩ := rootAt_succ.mp h
    cases m with
    | zero =>
      rw [(rootAt_zero.mp h').2] at hb
      exact nomatch hb
    | succ m =>
      obtain ⟨b', hb', hrest'⟩ := rootAt_succ.mp h'
      obtain rfl := Option.some.inj (hb.symm.trans hb')
      obtain ⟨rfl, rfl⟩ := ih hrest hrest'
      exact ⟨rfl, rfl⟩

theorem forest_none : Forest fun _ : α => none := fun a => ⟨0, a, rfl, rfl⟩

section Links

variable [DecidableEq α]

theorem Forest.link (h : Forest parent) {s t : α} (hs : parent s = none) (ht : parent t = none) (hne : s ≠ t) :
    Forest (Function.update parent s (some t)) := by
  have htop : RootAt (Function.update parent s (some t)) 0 t t :=
    rootAt_zero.mpr ⟨rfl, by rw [Function.update_of_ne hne.symm]; exact ht⟩
  intro a
  obtain ⟨n, r, hroot⟩ := h a
  induction n generalizing a with
  | zero =>
    obtain ⟨rfl, hnone⟩ := rootAt_zero.mp hroot
    by_cases ha : a = s
    · subst ha
      exact ⟨1, t, rootAt_succ.mpr ⟨t, Function.update_self .., htop⟩⟩
    · exact ⟨0, a, rootAt_zero.mpr ⟨rfl, by rw [Function.update_of_ne ha]; exact hnone⟩⟩
  | succ n ih =>
    obtain ⟨b, hb, hrest⟩ := rootAt_succ.mp hroot
    have ha : a ≠ s := by
      rintro rfl
      rw [hs] at hb
      exact nomatch hb
    obtain ⟨m, r', hnew⟩ := ih b hrest
    exact ⟨m + 1, r', rootAt_succ.mpr ⟨b, by rw [Function.update_of_ne ha]; exact hb, hnew⟩⟩

theorem Forest.cut (h : Forest parent) (s : α) : Forest (Function.update parent s none) := by
  intro a
  obtain ⟨n, r, hroot⟩ := h a
  induction n generalizing a with
  | zero =>
    obtain ⟨rfl, hnone⟩ := rootAt_zero.mp hroot
    refine ⟨0, a, rootAt_zero.mpr ⟨rfl, ?_⟩⟩
    by_cases ha : a = s
    · subst ha
      exact Function.update_self ..
    · rw [Function.update_of_ne ha]
      exact hnone
  | succ n ih =>
    obtain ⟨b, hb, hrest⟩ := rootAt_succ.mp hroot
    by_cases ha : a = s
    · subst ha
      exact ⟨0, a, rootAt_zero.mpr ⟨rfl, Function.update_self ..⟩⟩
    · obtain ⟨m, r', hnew⟩ := ih b hrest
      exact ⟨m + 1, r', rootAt_succ.mpr ⟨b, by rw [Function.update_of_ne ha]; exact hb, hnew⟩⟩

end Links

end TeamInbox.Lib
