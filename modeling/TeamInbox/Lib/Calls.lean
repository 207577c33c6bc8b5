import TeamInbox.Lib.Run
import Mathlib.Logic.Function.Basic

/-!
# TeamInbox.Lib.Calls — concurrent calls over a shared state

A call is a sequence of atomic steps; between two of them it is in a stage of type `χ` that keeps what the call
has read.  `Machine.act` is one step of call `p`: from the shared state, its stage and what the scheduler
supplies to the next shared state and stage.  `Machine.env` is everything else that happens.  A run interleaves
the steps of any number of calls.

`Holds I J` is an annotation: `I` of the shared state and `J` of every call.  `Machine.holds_step` is the rule of
Owicki and Gries: a step of a call keeps `I`, establishes the call's next assertion and interferes with no other.
-/

namespace TeamInbox.Lib

/-- The steps of a call, and those of the environment. -/
structure Machine (σ χ α ε : Type) where
  act : ℕ → σ → χ → α → Option (σ × χ)
  env : ε → σ → Option σ

/-- The shared state, and where every call stands. -/
structure Calls (σ χ : Type) where
  shared : σ
  calls : ℕ → χ

inductive CallAction (α ε : Type)
  | act (p : ℕ) (a : α)
  | env (e : ε)
  deriving DecidableEq

variable {σ χ α ε : Type}

namespace Calls

/-- All calls are in one stage. -/
def start (w : σ) (idle : χ) : Calls σ χ := ⟨w, fun _ => idle⟩

/-- Call `p` has made a step. -/
def set (s : Calls σ χ) (p : ℕ) (w : σ) (x : χ) : Calls σ χ := ⟨w, Function.update s.calls p x⟩

@[simp] theorem shared_start (w : σ) (idle : χ) : (start w idle).shared = w := rfl

@[simp] theorem calls_start (w : σ) (idle : χ) (p : ℕ) : (start w idle).calls p = idle := rfl

@[simp] theorem shared_set (s : Calls σ χ) (p : ℕ) (w : σ) (x : χ) : (s.set p w x).shared = w := rfl

@[simp] theorem calls_set_self (s : Calls σ χ) (p : ℕ) (w : σ) (x : χ) : (s.set p w x).calls p = x := by
  show Function.update s.calls p x p = x
  rw [Function.update_self]

theorem calls_set_ne (s : Calls σ χ) {p q : ℕ} (w : σ) (x : χ) (h : q ≠ p) : (s.set p w x).calls q = s.calls q := by
  show Function.update s.calls p x q = s.calls q
  rw [Function.update_of_ne h]

end Calls

namespace Machine

variable (M : Machine σ χ α ε)

def step (s : Calls σ χ) : CallAction α ε → Option (Calls σ χ)
  | .act p a => (M.act p s.shared (s.calls p) a).map fun r => s.set p r.1 r.2
  | .env e => (M.env e s.shared).map fun w => { s with shared := w }

variable {M}

theorem step_act {s s' : Calls σ χ} {p : ℕ} {a : α} (h : M.step s (.act p a) = some s') :
    ∃ w x, M.act p s.shared (s.calls p) a = some (w, x) ∧ s' = s.set p w x := by
  obtain ⟨⟨w, x⟩, hact, rfl⟩ := Option.map_eq_some_iff.mp h
  exact ⟨w, x, hact, rfl⟩

theorem step_env {s s' : Calls σ χ} {e : ε} (h : M.step s (.env e) = some s') :
    ∃ w, M.env e s.shared = some w ∧ s' = { s with shared := w } := by
  obtain ⟨w, henv, rfl⟩ := Option.map_eq_some_iff.mp h
  exact ⟨w, henv, rfl⟩

end Machine

/-- The annotation `I`, `J` holds. -/
def Holds (I : σ → Prop) (J : σ → ℕ → χ → Prop) (s : Calls σ χ) : Prop :=
  I s.shared ∧ ∀ p, J s.shared p (s.calls p)

section Rule

variable {M : Machine σ χ α ε} {C : Calls σ χ → CallAction α ε → Prop} {I : σ → Prop} {J : σ → ℕ → χ → Prop}

theorem holds_start {w : σ} {idle : χ} (hI : I w) (hJ : ∀ p, J w p idle) : Holds I J (Calls.start w idle) :=
  ⟨hI, hJ⟩

theorem Holds.set {s : Calls σ χ} {p : ℕ} {w : σ} {x : χ} (hI : I w) (hx : J w p x)
    (hothers : ∀ q, q ≠ p → J w q (s.calls q)) : Holds I J (s.set p w x) := by
  refine ⟨hI, fun q => ?_⟩
  by_cases hq : q = p
  · subst hq
    rw [Calls.calls_set_self]
    exact hx
  · rw [Calls.calls_set_ne s w x hq]
    exact hothers q hq

/-- **Owicki and Gries.**  A step of a call keeps the shared invariant, establishes its own next assertion and
leaves the assertions of the other calls alone. -/
theorem Machine.holds_step
    (hact : ∀ s p a w x, Holds I J s → C s (.act p a) → M.act p s.shared (s.calls p) a = some (w, x) →
      I w ∧ J w p x ∧ ∀ q, q ≠ p → J w q (s.calls q))
    (henv : ∀ s e w, Holds I J s → C s (.env e) → M.env e s.shared = some w → I w ∧ ∀ q, J w q (s.calls q))
    (s : Calls σ χ) (a : CallAction α ε) (s' : Calls σ χ) (hs : Holds I J s) (hC : C s a)
    (h : M.step s a = some s') : Holds I J s' := by
  cases a with
  | act p a =>
    obtain ⟨w, x, hstep, rfl⟩ := Machine.step_act h
    obtain ⟨hI, hx, hothers⟩ := hact s p a w x hs hC hstep
    exact Holds.set hI hx hothers
  | env e =>
    obtain ⟨w, hstep, rfl⟩ := Machine.step_env h
    exact henv s e w hs hC hstep

end Rule

/-! ### Exclusive stages -/

/-- The calls in a stage of `f` are those that `owner` names: there is one at most. -/
def Owned (f : χ → Bool) (owner : σ → Option ℕ) (s : Calls σ χ) : Prop :=
  ∀ p, owner s.shared = some p ↔ f (s.calls p) = true

section Owned

variable {f : χ → Bool} {owner : σ → Option ℕ} {s : Calls σ χ} {p q : ℕ} {w : σ} {x y : χ}

theorem owned_start {idle : χ} (hidle : f idle = false) (hw : owner w = none) : Owned f owner (Calls.start w idle) := by
  intro p
  rw [Calls.shared_start, Calls.calls_start, hidle, hw]
  exact iff_of_false nofun nofun

theorem Owned.unique (h : Owned f owner s) (hp : f (s.calls p) = true) (hq : f (s.calls q) = true) : q = p :=
  Option.some.inj (((h q).mpr hq).symm.trans ((h p).mpr hp))

theorem Owned.none_of_free (h : Owned f owner s) (hfree : owner s.shared = none) : f (s.calls p) = false := by
  refine Bool.eq_false_iff.mpr fun hp => ?_
  rw [(h p).mpr hp] at hfree
  cases hfree

theorem Owned.keep (h : Owned f owner s) (hp : s.calls p = x) (hw : owner w = owner s.shared) (hy : f y = f x) :
    Owned f owner (s.set p w y) := by
  intro q
  rw [Calls.shared_set, hw, h q]
  by_cases hq : q = p
  · rw [hq, Calls.calls_set_self, hp, hy]
  · rw [Calls.calls_set_ne s w y hq]

theorem Owned.take (h : Owned f owner s) (hfree : owner s.shared = none) (hw : owner w = some p) (hx : f x = true) :
    Owned f owner (s.set p w x) := by
  intro q
  rw [Calls.shared_set, hw]
  by_cases hq : q = p
  · rw [hq, Calls.calls_set_self]
    exact iff_of_true rfl hx
  · rw [Calls.calls_set_ne s w x hq, h.none_of_free hfree]
    exact iff_of_false (fun heq => hq (Option.some.inj heq).symm) nofun

theorem Owned.release (h : Owned f owner s) (hp : s.calls p = x) (hx : f x = true) (hw : owner w = none)
    (hy : f y = false) : Owned f owner (s.set p w y) := by
  intro q
  rw [Calls.shared_set, hw]
  by_cases hq : q = p
  · rw [hq, Calls.calls_set_self, hy]
    exact iff_of_false nofun nofun
  · rw [Calls.calls_set_ne s w y hq]
    exact iff_of_false nofun fun hf => hq (h.unique (hp ▸ hx) hf)

end Owned

/-! ### Runs of few calls -/

/-- The call that acts. -/
def CallAction.actor : CallAction α ε → Option ℕ
  | .act p _ => some p
  | .env _ => none

/-- The action is of a call below `n`, or of the environment. -/
def CallAction.below (n : ℕ) : CallAction α ε → Bool
  | .act p _ => decide (p < n)
  | .env _ => true

/-- The calls below `n`, but for the one that acts, satisfy `P`. -/
def OthersBelow (n : ℕ) (P : χ → Prop) (s : Calls σ χ) (a : CallAction α ε) : Prop :=
  ∀ q < n, a.actor ≠ some q → P (s.calls q)

instance (n : ℕ) (P : χ → Prop) [DecidablePred P] (s : Calls σ χ) (a : CallAction α ε) :
    Decidable (OthersBelow n P s a) :=
  inferInstanceAs (Decidable (∀ q < n, a.actor ≠ some q → P (s.calls q)))

/-- A side condition on the other calls need only be looked at where calls take part. -/
theorem meets_of_below {M : Machine σ χ α ε} {C : Calls σ χ → CallAction α ε → Prop} {P : χ → Prop} {idle : χ}
    (n : ℕ) (hidle : P idle) (h : ∀ s a, (∀ q, a.actor ≠ some q → P (s.calls q)) → C s a) {s : Calls σ χ}
    {as : List (CallAction α ε)} (hs : ∀ q, n ≤ q → s.calls q = idle) (hbelow : as.all (·.below n) = true)
    (hC : Meets M.step (OthersBelow n P) s as) : Meets M.step C s as := by
  induction as generalizing s with
  | nil => trivial
  | cons a as ih =>
    intro s' hstep
    obtain ⟨hCa, hrest⟩ := hC s' hstep
    rw [List.all_cons, Bool.and_eq_true] at hbelow
    refine ⟨h s a fun q hq => ?_, ih (fun q hq => ?_) hbelow.2 hrest⟩
    · by_cases hsmall : q < n
      · exact hCa q hsmall hq
      · rw [hs q (by omega)]
        exact hidle
    · cases a with
      | act p a =>
        obtain ⟨w, x, -, rfl⟩ := Machine.step_act hstep
        have hp : p < n := of_decide_eq_true hbelow.1
        rw [Calls.calls_set_ne s w x (by omega)]
        exact hs q hq
      | env e =>
        obtain ⟨w, -, rfl⟩ := Machine.step_env hstep
        exact hs q hq

end TeamInbox.Lib
