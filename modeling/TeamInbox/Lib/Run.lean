import Mathlib.Data.Nat.Notation

/-!
# TeamInbox.Lib.Run — runs of a transition function

A system is a function `step : σ → α → Option σ`, where `none` says that the action is not enabled.
`runActions step s as` performs the actions `as` in order.  `Always step P s as` says that every
state of the run satisfies `P`, the first and the last included, and `Meets step C s as` that every
action it performs starts in a state in which the side condition `C` admits it; `Steps step R s as`
speaks of the state before and after each of them.  `always_of_meets` is the rule every
safety result of such a system goes through: what holds at the start and is kept by every admitted
step holds all along every admitted run.

A step that is itself a program is a state-passing computation; `Ensures` says what it leaves.
-/

namespace TeamInbox.Lib

variable {σ α : Type}

/-- Perform the actions in order; `none` if one of them is not enabled. -/
def runActions (step : σ → α → Option σ) : σ → List α → Option σ
  | s, [] => some s
  | s, a :: as => (step s a).bind fun s' => runActions step s' as

/-- Every state of the run satisfies `P`. -/
def Always (step : σ → α → Option σ) (P : σ → Prop) : σ → List α → Prop
  | s, [] => P s
  | s, a :: as => P s ∧ ∀ s', step s a = some s' → Always step P s' as

/-- Every action the run performs starts in a state in which `C` admits it. -/
def Meets (step : σ → α → Option σ) (C : σ → α → Prop) : σ → List α → Prop
  | _, [] => True
  | s, a :: as => ∀ s', step s a = some s' → C s a ∧ Meets step C s' as

/-- Every action the run performs leads from a state to one that `R` relates to it under the action. -/
def Steps (step : σ → α → Option σ) (R : σ → α → σ → Prop) : σ → List α → Prop
  | _, [] => True
  | s, a :: as => ∀ s', step s a = some s' → R s a s' ∧ Steps step R s' as

variable {step : σ → α → Option σ} {C : σ → α → Prop} {P : σ → Prop}

@[simp] theorem runActions_nil (s : σ) : runActions step s [] = some s := rfl

theorem runActions_cons {s s' : σ} {a : α} {as : List α} :
    runActions step s (a :: as) = some s' ↔
      ∃ s₁, step s a = some s₁ ∧ runActions step s₁ as = some s' := by
  simp only [runActions, Option.bind_eq_some_iff]

theorem runActions_append {s s' : σ} {as bs : List α} :
    runActions step s (as ++ bs) = some s' ↔
      ∃ s₁, runActions step s as = some s₁ ∧ runActions step s₁ bs = some s' := by
  induction as generalizing s with
  | nil => exact ⟨fun h => ⟨s, rfl, h⟩, fun ⟨s₁, hs, h⟩ => (Option.some.inj hs) ▸ h⟩
  | cons a as ih =>
    rw [List.cons_append, runActions_cons]
    constructor
    · rintro ⟨s₁, ha, hrest⟩
      obtain ⟨s₂, has, hbs⟩ := ih.mp hrest
      exact ⟨s₂, runActions_cons.mpr ⟨s₁, ha, has⟩, hbs⟩
    · rintro ⟨s₂, has, hbs⟩
      obtain ⟨s₁, ha, has⟩ := runActions_cons.mp has
      exact ⟨s₁, ha, ih.mpr ⟨s₂, has, hbs⟩⟩

theorem always_iff_reached {s : σ} {as : List α} :
    Always step P s as ↔
      ∀ as₁ as₂ s', as = as₁ ++ as₂ → runActions step s as₁ = some s' → P s' := by
  induction as generalizing s with
  | nil =>
    constructor
    · intro h as₁ as₂ s' hsplit hrun
      obtain ⟨rfl, -⟩ := List.append_eq_nil_iff.mp hsplit.symm
      simp only [runActions_nil, Option.some.injEq] at hrun
      exact hrun ▸ h
    · intro h
      exact h [] [] s rfl rfl
  | cons a as ih =>
    constructor
    · rintro ⟨hs, hrest⟩ as₁ as₂ s' hsplit hrun
      cases as₁ with
      | nil =>
        simp only [runActions_nil, Option.some.injEq] at hrun
        exact hrun ▸ hs
      | cons b as₁ =>
        simp only [List.cons_append, List.cons.injEq] at hsplit
        obtain ⟨rfl, hsplit⟩ := hsplit
        obtain ⟨s₁, h₁, h₂⟩ := runActions_cons.mp hrun
        exact ih.mp (hrest s₁ h₁) as₁ as₂ s' hsplit h₂
    · intro h
      refine ⟨h [] (a :: as) s rfl rfl, fun s₁ h₁ => ih.mpr fun as₁ as₂ s' hsplit hrun => ?_⟩
      exact h (a :: as₁) as₂ s' (by rw [hsplit, List.cons_append])
        (runActions_cons.mpr ⟨s₁, h₁, hrun⟩)

theorem Always.start {s : σ} {as : List α} (h : Always step P s as) : P s := by
  cases as with
  | nil => exact h
  | cons a as => exact h.1

theorem Always.mono {Q : σ → Prop} {s : σ} {as : List α} (h : Always step P s as)
    (hPQ : ∀ s, P s → Q s) : Always step Q s as := by
  induction as generalizing s with
  | nil => exact hPQ s h
  | cons a as ih => exact ⟨hPQ s h.1, fun s' hs => ih (h.2 s' hs)⟩

/-- **Invariant rule.**  What holds at the start and is kept by every admitted step holds all along
every admitted run. -/
theorem always_of_meets {I : σ → Prop}
    (hstep : ∀ s a s', I s → C s a → step s a = some s' → I s') {s : σ} {as : List α}
    (hs : I s) (hC : Meets step C s as) : Always step I s as := by
  induction as generalizing s with
  | nil => exact hs
  | cons a as ih =>
    refine ⟨hs, fun s' h => ?_⟩
    obtain ⟨hCa, hrest⟩ := hC s' h
    exact ih (hstep s a s' hs hCa h) hrest

/-- The steps of an admitted run, by what each does where the invariant holds. -/
theorem steps_of_meets {I : σ → Prop} {R : σ → α → σ → Prop}
    (hstep : ∀ s a s', I s → C s a → step s a = some s' → I s' ∧ R s a s') {s : σ} {as : List α}
    (hs : I s) (hC : Meets step C s as) : Steps step R s as := by
  induction as generalizing s with
  | nil => trivial
  | cons a as ih =>
    intro s' h
    obtain ⟨hCa, hrest⟩ := hC s' h
    obtain ⟨hs', hR⟩ := hstep s a s' hs hCa h
    exact ⟨hR, ih hs' hrest⟩

theorem meets_of_steps {I : σ → Prop} {R : σ → α → σ → Prop}
    (hstep : ∀ s a s', I s → step s a = some s' → R s a s' → I s' ∧ C s a) {s : σ} {as : List α} (hs : I s)
    (h : Steps step R s as) : Meets step C s as := by
  induction as generalizing s with
  | nil => trivial
  | cons a as ih =>
    intro s' ha
    obtain ⟨hR, hrest⟩ := h s' ha
    obtain ⟨hs', hC⟩ := hstep s a s' hs ha hR
    exact ⟨hC, ih hs' hrest⟩

theorem Steps.last {R : σ → α → σ → Prop} {s s₁ s₂ : σ} {as : List α} {a : α} {bs : List α}
    (h : Steps step R s (as ++ a :: bs)) (hrun : runActions step s as = some s₁)
    (hlast : step s₁ a = some s₂) : R s₁ a s₂ := by
  induction as generalizing s with
  | nil =>
    obtain rfl := Option.some.inj hrun
    exact (h s₂ hlast).1
  | cons b as ih =>
    obtain ⟨s₀, hb, hrest⟩ := runActions_cons.mp hrun
    exact ih (h s₀ hb).2 hrest

theorem always_of_step {I : σ → Prop} (hstep : ∀ s a s', I s → step s a = some s' → I s')
    {s : σ} (hs : I s) (as : List α) : Always step I s as := by
  induction as generalizing s with
  | nil => exact hs
  | cons a as ih => exact ⟨hs, fun s' h => ih (hstep s a s' hs h)⟩

/-- A side condition whose violation shows in the next state is met by every run that stays in `P`.
The invariant `I` may be used on the way. -/
theorem meets_of_always {I : σ → Prop} (hinv : ∀ s a s', I s → step s a = some s' → P s' → I s')
    (hviol : ∀ s a s', I s → step s a = some s' → P s' → C s a) {s : σ} {as : List α}
    (hs : I s) (h : Always step P s as) : Meets step C s as := by
  induction as generalizing s with
  | nil => trivial
  | cons a as ih =>
    intro s' hstep
    have hP : P s' := (h.2 s' hstep).start
    exact ⟨hviol s a s' hs hstep hP, ih (hinv s a s' hs hstep hP) (h.2 s' hstep)⟩

theorem meets_of_forall (h : ∀ s a, C s a) {s : σ} {as : List α} : Meets step C s as := by
  induction as generalizing s with
  | nil => trivial
  | cons a as ih => exact fun s' _ => ⟨h s a, ih⟩

theorem meets_of_actions {p : α → Prop} {s : σ} {as : List α} (h : ∀ a ∈ as, p a) :
    Meets step (fun _ a => p a) s as := by
  induction as generalizing s with
  | nil => trivial
  | cons a as ih =>
    exact fun s' _ => ⟨h a List.mem_cons_self, ih fun b hb => h b (List.mem_cons_of_mem a hb)⟩

theorem Meets.and {C' : σ → α → Prop} {s : σ} {as : List α} (h : Meets step C s as)
    (h' : Meets step C' s as) : Meets step (fun s a => C s a ∧ C' s a) s as := by
  induction as generalizing s with
  | nil => trivial
  | cons a as ih =>
    exact fun s' hs => ⟨⟨(h s' hs).1, (h' s' hs).1⟩, ih (h s' hs).2 (h' s' hs).2⟩

theorem Meets.mono {C' : σ → α → Prop} {s : σ} {as : List α} (h : Meets step C s as)
    (hCC : ∀ s a, C s a → C' s a) : Meets step C' s as := by
  induction as generalizing s with
  | nil => trivial
  | cons a as ih => exact fun s' hs => ⟨hCC s a (h s' hs).1, ih (h s' hs).2⟩

theorem Meets.strengthen {I : σ → Prop} {C' : σ → α → Prop}
    (hstep : ∀ s a s', I s → step s a = some s' → I s') {s : σ} {as : List α} (hs : I s)
    (h : Meets step C s as) (hCC : ∀ s a, I s → C s a → C' s a) : Meets step C' s as := by
  induction as generalizing s with
  | nil => trivial
  | cons a as ih =>
    intro s' ha
    obtain ⟨hC, hrest⟩ := h s' ha
    exact ⟨hCC s a hs hC, ih (hstep s a s' hs ha) hrest⟩

/-- The side condition, evaluated along the run. -/
def meetsCheck (step : σ → α → Option σ) (C : σ → α → Bool) : σ → List α → Bool
  | _, [] => true
  | s, a :: as => match step s a with
    | none => true
    | some s' => C s a && meetsCheck step C s' as

theorem meets_of_check [∀ s a, Decidable (C s a)] {s : σ} {as : List α}
    (h : meetsCheck step (fun s a => decide (C s a)) s as = true) : Meets step C s as := by
  induction as generalizing s with
  | nil => trivial
  | cons a as ih =>
    intro s' hstep
    simp only [meetsCheck, hstep, Bool.and_eq_true, decide_eq_true_eq] at h
    exact ⟨h.1, ih h.2⟩

/-! ### State-passing computations -/

variable {β γ : Type}

/-- The computation, started in `s`, ends with a value and a state that satisfy `Q`. -/
def Ensures (m : StateM σ β) (s : σ) (Q : β → σ → Prop) : Prop := Q (m s).1 (m s).2

theorem Ensures.bind {m : StateM σ β} {g : β → StateM σ γ} {s : σ} {M : β → σ → Prop}
    {Q : γ → σ → Prop} (hm : Ensures m s M) (hg : ∀ b s', M b s' → Ensures (g b) s' Q) :
    Ensures (m >>= g) s Q := hg _ _ hm

theorem Ensures.mono {m : StateM σ β} {s : σ} {M Q : β → σ → Prop} (hm : Ensures m s M)
    (h : ∀ b s', M b s' → Q b s') : Ensures m s Q := h _ _ hm

/-! ### Computations that may throw -/

variable {ε : Type}

theorem Ensures.bindThrows {m : ExceptT ε (StateM σ) β} {g : β → ExceptT ε (StateM σ) γ} {s : σ}
    {Q : Except ε γ → σ → Prop} (hm : Ensures m.run s fun r s' => match r with
      | .ok b => Ensures (g b).run s' Q
      | .error e => Q (.error e) s') : Ensures (m >>= g).run s Q := by
  show Ensures (m.run >>= ExceptT.bindCont g) s Q
  refine Ensures.bind hm fun r s' h => ?_
  cases r with
  | ok b => exact h
  | error e => exact h

/-- The handler of an error starts where the computation stopped. -/
theorem Ensures.catchThrows {m : ExceptT ε (StateM σ) β} {g : ε → ExceptT ε (StateM σ) β} {s : σ}
    {Q : Except ε β → σ → Prop} (hm : Ensures m.run s fun r s' => match r with
      | .ok b => Q (.ok b) s'
      | .error e => Ensures (g e).run s' Q) : Ensures (tryCatch m g).run s Q := by
  show Ensures (ExceptT.tryCatch m g) s Q
  refine Ensures.bind (m := m) hm fun r s' h => ?_
  cases r with
  | ok b => exact h
  | error e => exact h

end TeamInbox.Lib
