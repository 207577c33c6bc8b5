import Mathlib.Data.List.Basic

/-!
# TeamInbox.Lib.Locks — exclusive locks

A lock has one owner at most, who may take it again.  An owner lets go of all its locks at once, at the end of its
transaction.
-/

namespace TeamInbox.Lib

structure Locks (κ : Type) where
  held : List (κ × ℕ)
  exclusive : ∀ k p q, (k, p) ∈ held → (k, q) ∈ held → p = q

namespace Locks

variable {κ : Type}

def unlocked : Locks κ := ⟨[], fun _ _ _ h => (nomatch h)⟩

def Owns (t : Locks κ) (p : ℕ) (k : κ) : Prop := (k, p) ∈ t.held

theorem Owns.unique {t : Locks κ} {p q : ℕ} {k : κ} (hp : t.Owns p k) (hq : t.Owns q k) : p = q :=
  t.exclusive k p q hp hq

/-- The end of the transaction of `p`. -/
def release (p : ℕ) (t : Locks κ) : Locks κ where
  held := t.held.filter fun l => decide (l.2 ≠ p)
  exclusive k q r hq hr := t.exclusive k q r (List.mem_filter.mp hq).1 (List.mem_filter.mp hr).1

theorem owns_release {t : Locks κ} {p q : ℕ} {k : κ} (h : q ≠ p) : (t.release p).Owns q k ↔ t.Owns q k := by
  show (k, q) ∈ t.held.filter _ ↔ _
  rw [List.mem_filter]
  exact ⟨And.left, fun hq => ⟨hq, decide_eq_true h⟩⟩

variable [DecidableEq κ]

/-- Nobody but `p` owns the lock. -/
def free (t : Locks κ) (p : ℕ) (k : κ) : Bool := t.held.all fun l => decide (l.1 = k → l.2 = p)

theorem free_iff {t : Locks κ} {p : ℕ} {k : κ} : t.free p k = true ↔ ∀ q, t.Owns q k → q = p := by
  unfold free
  rw [List.all_eq_true]
  constructor
  · exact fun h q hq => of_decide_eq_true (h (k, q) hq) rfl
  · rintro h ⟨k', q⟩ hmem
    exact decide_eq_true fun heq => h q (by rw [← show k' = k from heq]; exact hmem)

def take (p : ℕ) (k : κ) (t : Locks κ) : Option (Locks κ) :=
  if h : t.free p k = true then
    some
      { held := (k, p) :: t.held
        exclusive := fun k' q r hq hr => by
          have hfree := free_iff.mp h
          have hp : ∀ q, (k', q) ∈ (k, p) :: t.held → k' = k → q = p := fun q hq hk => by
            rcases List.mem_cons.mp hq with heq | hq
            · exact (Prod.mk.inj heq).2
            · exact hfree q (hk ▸ hq)
          by_cases hk : k' = k
          · exact (hp q hq hk).trans (hp r hr hk).symm
          · have hold : ∀ q, (k', q) ∈ (k, p) :: t.held → (k', q) ∈ t.held := fun q hq =>
              (List.mem_cons.mp hq).resolve_left fun heq => hk (Prod.mk.inj heq).1
            exact t.exclusive k' q r (hold q hq) (hold r hr) }
  else none

theorem owns_take {t t' : Locks κ} {p q : ℕ} {k k' : κ} (h : t.take p k = some t') :
    t'.Owns q k' ↔ t.Owns q k' ∨ q = p ∧ k' = k := by
  unfold take at h
  split_ifs at h
  obtain rfl := Option.some.inj h
  show (k', q) ∈ (k, p) :: t.held ↔ _
  rw [List.mem_cons, Prod.mk.injEq, or_comm, and_comm]
  rfl

end Locks

end TeamInbox.Lib
