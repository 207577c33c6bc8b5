import TeamInbox.Lib.Proc

/-!
# TeamInbox.Lib.Exec — the executions of one procedure

`Exec exec R p s tr r s'` says that the procedure `p`, started in `s`, performs the operations `tr` and ends with `r` in
`s'`, where others change the state by `R` before each operation and at the end.  An operation is recorded with what the
scheduler supplied and the states around it, so that a condition on an execution can speak of what each operation met.

`Post` is what holds of every execution, by recursion on the procedure; `Proc.run` performs one execution that nobody
disturbs.
-/

namespace TeamInbox.Lib

/-- An operation that was performed. -/
structure Performed (Op φ σ : Type) where
  op : Op
  choice : φ
  before : σ
  after : σ

variable {Op : Type} {Resp : Op → Type} {ε σ φ α β : Type}

section Exec

variable (exec : (op : Op) → φ → σ → Option (Resp op × σ)) (R : σ → σ → Prop)

def Exec : Proc Op Resp ε α → σ → List (Performed Op φ σ) → Except ε α → σ → Prop
  | .done a, s, tr, r, s' => tr = [] ∧ r = .ok a ∧ R s s'
  | .fail e, s, tr, r, s' => tr = [] ∧ r = .error e ∧ R s s'
  | .act op k, s, tr, r, s' => ∃ s₁ f b s₂ tr', R s s₁ ∧ exec op f s₁ = some (b, s₂) ∧ tr = ⟨op, f, s₁, s₂⟩ :: tr' ∧
    Exec (k b) s₂ tr' r s'

/-- Every execution satisfies `Q`. -/
def Post : Proc Op Resp ε α → σ → (List (Performed Op φ σ) → Except ε α → σ → Prop) → Prop
  | .done a, s, Q => ∀ s', R s s' → Q [] (.ok a) s'
  | .fail e, s, Q => ∀ s', R s s' → Q [] (.error e) s'
  | .act op k, s, Q => ∀ s₁, R s s₁ → ∀ f b s₂, exec op f s₁ = some (b, s₂) →
    Post (k b) s₂ fun tr => Q (⟨op, f, s₁, s₂⟩ :: tr)

variable {exec R}

theorem post_iff {p : Proc Op Resp ε α} {s : σ} {Q : List (Performed Op φ σ) → Except ε α → σ → Prop} :
    Post exec R p s Q ↔ ∀ tr r s', Exec exec R p s tr r s' → Q tr r s' := by
  induction p generalizing s Q with
  | done a =>
    constructor
    · rintro h _ _ s' ⟨rfl, rfl, hR⟩
      exact h s' hR
    · exact fun h s' hR => h [] _ s' ⟨rfl, rfl, hR⟩
  | fail e =>
    constructor
    · rintro h _ _ s' ⟨rfl, rfl, hR⟩
      exact h s' hR
    · exact fun h s' hR => h [] _ s' ⟨rfl, rfl, hR⟩
  | act op k ih =>
    constructor
    · rintro h _ r s' ⟨s₁, f, b, s₂, tr', hR, hx, rfl, hk⟩
      exact (ih b).mp (h s₁ hR f b s₂ hx) tr' r s' hk
    · intro h s₁ hR f b s₂ hx
      exact (ih b).mpr fun tr r s' hk => h _ r s' ⟨s₁, f, b, s₂, tr, hR, hx, rfl, hk⟩

theorem Post.mono {p : Proc Op Resp ε α} {s : σ} {Q Q' : List (Performed Op φ σ) → Except ε α → σ → Prop}
    (h : Post exec R p s Q) (hQ : ∀ tr r s', Q tr r s' → Q' tr r s') : Post exec R p s Q' :=
  post_iff.mpr fun tr r s' hexec => hQ tr r s' (post_iff.mp h tr r s' hexec)

theorem Post.and {p : Proc Op Resp ε α} {s : σ} {Q Q' : List (Performed Op φ σ) → Except ε α → σ → Prop}
    (h : Post exec R p s Q) (h' : Post exec R p s Q') : Post exec R p s fun tr r s' => Q tr r s' ∧ Q' tr r s' :=
  post_iff.mpr fun tr r s' hexec => ⟨post_iff.mp h tr r s' hexec, post_iff.mp h' tr r s' hexec⟩

/-- **Sequencing**: the operations of the continuation come after those of the first procedure. -/
theorem Post.bind (hR : ∀ s, R s s) {p : Proc Op Resp ε α} {g : α → Proc Op Resp ε β} {s : σ}
    {Q : List (Performed Op φ σ) → Except ε β → σ → Prop}
    (h : Post exec R p s fun tr r s' => match r with
      | .ok a => Post exec R (g a) s' fun tr' => Q (tr ++ tr')
      | .error e => Q tr (.error e) s') : Post exec R (p.bind g) s Q := by
  induction p generalizing s Q with
  | done a => exact h s (hR s)
  | fail e => exact h
  | act op k ih => exact fun s₁ hR₁ f b s₂ hx => ih b (h s₁ hR₁ f b s₂ hx)

theorem Post.done {a : α} {s : σ} {Q : List (Performed Op φ σ) → Except ε α → σ → Prop}
    (h : ∀ s', R s s' → Q [] (.ok a) s') : Post exec R (.done a) s Q := h

theorem Post.fail {e : ε} {s : σ} {Q : List (Performed Op φ σ) → Except ε α → σ → Prop}
    (h : ∀ s', R s s' → Q [] (.error e) s') : Post exec R (.fail e) s Q := h

/-- **One operation.** -/
theorem Post.act {op : Op} {k : Resp op → Proc Op Resp ε α} {s : σ}
    {Q : List (Performed Op φ σ) → Except ε α → σ → Prop}
    (h : ∀ s₁ f b s₂, R s s₁ → exec op f s₁ = some (b, s₂) →
      Post exec R (k b) s₂ fun tr => Q (⟨op, f, s₁, s₂⟩ :: tr)) : Post exec R (.act op k) s Q :=
  fun s₁ hR f b s₂ hx => h s₁ f b s₂ hR hx

theorem Post.of_forall {p : Proc Op Resp ε α} {s : σ} {Q : List (Performed Op φ σ) → Except ε α → σ → Prop}
    (h : ∀ tr r s', Q tr r s') : Post exec R p s Q := post_iff.mpr fun tr r s' _ => h tr r s'

theorem Post.of_allOps {P : Op → Prop} {p : Proc Op Resp ε α} (h : p.AllOps P) (s : σ) :
    Post exec R p s fun tr _ _ => ∀ x ∈ tr, P x.op := by
  induction p generalizing s with
  | done a => exact fun _ _ x hx => by cases hx
  | fail e => exact fun _ _ x hx => by cases hx
  | act op k ih =>
    refine fun s₁ _ f b s₂ _ => (ih b (h.2 b) s₂).mono fun tr r s' htr x hx => ?_
    rcases List.mem_cons.mp hx with rfl | hx
    · exact h.1
    · exact htr x hx

theorem Post.bind_fail (hR : ∀ s, R s s) {p : Proc Op Resp ε β} {e : ε} {s : σ} :
    Post exec R (p.bind fun _ => (.fail e : Proc Op Resp ε α)) s fun (_ : List (Performed Op φ σ)) r _ =>
      ∀ a, r ≠ .ok a := by
  refine Post.bind hR (Post.of_forall fun tr r s' => ?_)
  cases r with
  | error e => exact fun a h => by cases h
  | ok b => exact Post.fail fun _ _ a h => by cases h

theorem Post.attempt {p : Proc Op Resp ε α} {s : σ} {Q : List (Performed Op φ σ) → Except ε (Except ε α) → σ → Prop}
    (h : Post exec R p s fun tr r s' => Q tr (.ok r) s') : Post exec R p.attempt s Q := by
  induction p generalizing s Q with
  | done a => exact h
  | fail e => exact h
  | act op k ih => exact fun s₁ hR f b s₂ hx => ih b (h s₁ hR f b s₂ hx)

end Exec

/-! ### Undisturbed executions -/

/-- Perform the procedure with the supplied choices. -/
def Proc.run (exec : (op : Op) → φ → σ → Option (Resp op × σ)) :
    Proc Op Resp ε α → List φ → σ → Option (List (Performed Op φ σ) × Except ε α × σ)
  | .done a, _, s => some ([], .ok a, s)
  | .fail e, _, s => some ([], .error e, s)
  | .act _ _, [], _ => none
  | .act op k, f :: fs, s => (exec op f s).bind fun b => ((k b.1).run exec fs b.2).map fun r =>
    (⟨op, f, s, b.2⟩ :: r.1, r.2)

theorem exec_of_run {exec : (op : Op) → φ → σ → Option (Resp op × σ)} {R : σ → σ → Prop} (hR : ∀ s, R s s)
    {p : Proc Op Resp ε α} {fs : List φ} {s s' : σ} {tr : List (Performed Op φ σ)} {r : Except ε α}
    (h : p.run exec fs s = some (tr, r, s')) : Exec exec R p s tr r s' := by
  induction p generalizing fs s tr with
  | done a =>
    simp only [Proc.run, Option.some.injEq, Prod.mk.injEq] at h
    obtain ⟨rfl, rfl, rfl⟩ := h
    exact ⟨rfl, rfl, hR _⟩
  | fail e =>
    simp only [Proc.run, Option.some.injEq, Prod.mk.injEq] at h
    obtain ⟨rfl, rfl, rfl⟩ := h
    exact ⟨rfl, rfl, hR _⟩
  | act op k ih =>
    cases fs with
    | nil => cases h
    | cons f fs =>
      simp only [Proc.run, Option.bind_eq_some_iff, Option.map_eq_some_iff, Prod.exists, Prod.mk.injEq] at h
      obtain ⟨b, s₂, hx, tr', r', s₃, hrun, rfl, rfl, rfl⟩ := h
      exact ⟨s, f, b, s₂, tr', hR s, hx, rfl, ih b hrun⟩

end TeamInbox.Lib
