import Mathlib.Data.List.Pairwise
import Mathlib.Data.Option.Basic
import Mathlib.Order.Nat

/-!
# TeamInbox.Lib.FixedWindow — counting in fixed windows

A system answers operations that come at instants; `traceOf` is what it answers.  The fixed-window counter
keeps for each key the start of a window and how often the key was hit in it, up to one above its limit; a
hit after the window's end opens a new window, a drop forgets it.  Windows that have ended may be forgotten
at any time (`AgreeAt`).  A window admits at most its limit until the key is dropped (`window_bound`).
-/

namespace TeamInbox.Lib

/-! ### Traces of answers -/

section Trace

variable {σ τ α β γ : Type}

structure Answered (α β : Type) where
  now : ℕ
  op : α
  result : β

def traceOf (step : σ → ℕ → α → σ × β) : σ → List (ℕ × α) → List (Answered α β)
  | _, [] => []
  | s, (now, a) :: ops => ⟨now, a, (step s now a).2⟩ :: traceOf step (step s now a).1 ops

/-- Every operation of the run meets the condition in the state it starts in. -/
def Along (step : σ → ℕ → α → σ × β) (C : σ → ℕ → α → Prop) : σ → List (ℕ × α) → Prop
  | _, [] => True
  | s, (now, a) :: ops => C s now a ∧ Along step C (step s now a).1 ops

variable {step : σ → ℕ → α → σ × β} {step' : τ → ℕ → α → τ × γ}

/-- **Simulation of answers.**  A relation that time and steps keep carries the answers over. -/
theorem traceOf_simulates {C : σ → ℕ → α → Prop} {R : ℕ → σ → τ → Prop} {f : α → γ → β}
    (hlater : ∀ now now' s t, now ≤ now' → R now s t → R now' s t)
    (hstep : ∀ now a s t, R now s t → C s now a → (step s now a).2 = f a (step' t now a).2 ∧
      R now (step s now a).1 (step' t now a).1)
    {ops : List (ℕ × α)} (hmono : ops.Pairwise fun p q => p.1 ≤ q.1) {s : σ} {t : τ} {now : ℕ} (hR : R now s t)
    (hnow : ∀ p ∈ ops, now ≤ p.1) (hC : Along step C s ops) :
    traceOf step s ops = (traceOf step' t ops).map fun e => ⟨e.now, e.op, f e.op e.result⟩ := by
  induction ops generalizing s t now with
  | nil => rfl
  | cons p ops ih =>
    obtain ⟨now', a⟩ := p
    obtain ⟨hfirst, hrest⟩ := List.pairwise_cons.mp hmono
    obtain ⟨hCa, hC⟩ := hC
    obtain ⟨hresult, hR⟩ := hstep now' a s t (hlater now now' s t (hnow _ List.mem_cons_self) hR) hCa
    unfold traceOf
    rw [hresult, ih hrest hR hfirst hC, List.map_cons]

/-- What is answered from some operation on is answered to the operations from there. -/
theorem traceOf_split {I : σ → Prop} (hI : ∀ s now a, I s → I (step s now a).1) {ops : List (ℕ × α)} {s : σ}
    (hs : I s) {before rest : List (Answered α β)} (h : traceOf step s ops = before ++ rest) :
    ∃ s' ops', I s' ∧ ops'.Sublist ops ∧ traceOf step s' ops' = rest := by
  induction before generalizing s ops with
  | nil => exact ⟨s, ops, hs, List.Sublist.refl ops, h⟩
  | cons e before ih =>
    cases ops with
    | nil => cases h
    | cons p ops =>
      obtain ⟨now, a⟩ := p
      obtain ⟨s', ops', hs', hsub, hrest⟩ := ih (hI s now a hs) (List.cons_eq_cons.mp h).2
      exact ⟨s', ops', hs', hsub.trans (List.sublist_cons_self _ _), hrest⟩

theorem mem_traceOf {ops : List (ℕ × α)} {s : σ} {e : Answered α β} (h : e ∈ traceOf step s ops) :
    (e.now, e.op) ∈ ops := by
  induction ops generalizing s with
  | nil => cases h
  | cons p ops ih =>
    obtain ⟨now, a⟩ := p
    rcases List.mem_cons.mp h with rfl | h
    · exact List.mem_cons_self
    · exact List.mem_cons_of_mem _ (ih h)

theorem Along.and {C : σ → ℕ → α → Prop} {D : α → Prop} {ops : List (ℕ × α)} {s : σ} (h : Along step C s ops)
    (hD : ∀ p ∈ ops, D p.2) : Along step (fun s now a => D a ∧ C s now a) s ops := by
  induction ops generalizing s with
  | nil => exact trivial
  | cons p ops ih =>
    exact ⟨⟨hD p List.mem_cons_self, h.1⟩, ih h.2 fun q hq => hD q (List.mem_cons_of_mem p hq)⟩

theorem along_true (ops : List (ℕ × α)) (s : σ) : Along step (fun _ _ _ => True) s ops := by
  induction ops generalizing s with
  | nil => exact trivial
  | cons p ops ih => exact ⟨trivial, ih _⟩

end Trace

/-! ### The counter -/

structure Window where
  count : ℕ
  start : ℕ
  deriving DecidableEq

structure Quota where
  limit : ℕ
  length : ℕ
  deriving DecidableEq

namespace Quota

variable (q : Quota)

def isLive (now : ℕ) (w : Window) : Bool := decide (now < w.start + q.length)

/-- The window after one more hit. -/
def hit (now : ℕ) (o : Option Window) : Window :=
  match o.filter (q.isLive now) with
  | some w => ⟨min (w.count + 1) (q.limit + 1), w.start⟩
  | none => ⟨1, now⟩

variable {q} {now : ℕ} {w : Window}

theorem hit_live (h : q.isLive now w = true) : q.hit now (some w) = ⟨min (w.count + 1) (q.limit + 1), w.start⟩ := by
  unfold hit
  rw [Option.filter_some, if_pos h]

theorem hit_ended (h : q.isLive now w = false) : q.hit now (some w) = ⟨1, now⟩ := by
  unfold hit
  rw [Option.filter_some, if_neg (by simp [h])]

theorem hit_none : q.hit now none = ⟨1, now⟩ := rfl

theorem filter_later {now' : ℕ} (hle : now ≤ now') (o : Option Window) :
    (o.filter (q.isLive now)).filter (q.isLive now') = o.filter (q.isLive now') := by
  cases o with
  | none => rfl
  | some w =>
    cases h : q.isLive now w with
    | true => rw [Option.filter_some, if_pos h]
    | false =>
      have hlater : q.isLive now' w = false := by
        unfold isLive at h ⊢
        rw [decide_eq_false_iff_not] at h ⊢
        omega
      rw [Option.filter_some, if_neg (by simp [h]), Option.filter_some, if_neg (by simp [hlater])]
      rfl

end Quota

inductive WindowOp (κ : Type)
  | hit (k : κ)
  | drop (k : κ)
  | dropAll
  | pass
  deriving DecidableEq

section Counter

variable {κ α : Type} [DecidableEq κ] (quota : κ → Quota) (view : α → WindowOp κ)

/-- A hit is answered by its number in the window. -/
def windowStep (cells : κ → Option Window) (now : ℕ) (a : α) : (κ → Option Window) × Option ℕ :=
  match view a with
  | .hit k => (Function.update cells k (some ((quota k).hit now (cells k))), some ((quota k).hit now (cells k)).count)
  | .drop k => (Function.update cells k none, none)
  | .dropAll => (fun _ => none, none)
  | .pass => (cells, none)

/-- The same windows, as far as they have not ended. -/
def AgreeAt (now : ℕ) (a b : κ → Option Window) : Prop :=
  ∀ k, (a k).filter ((quota k).isLive now) = (b k).filter ((quota k).isLive now)

variable {quota view} {now : ℕ} {a b : κ → Option Window}

theorem AgreeAt.later {now' : ℕ} (hle : now ≤ now') (h : AgreeAt quota now a b) : AgreeAt quota now' a b := by
  intro k
  rw [← Quota.filter_later hle, h k, Quota.filter_later hle]

theorem AgreeAt.update (h : AgreeAt quota now a b) (k : κ) (o : Option Window) :
    AgreeAt quota now (Function.update a k o) (Function.update b k o) := by
  intro k'
  by_cases hk : k' = k
  · subst hk
    rw [Function.update_self, Function.update_self]
  · rw [Function.update_of_ne hk, Function.update_of_ne hk]
    exact h k'

theorem AgreeAt.step (h : AgreeAt quota now a b) (op : α) :
    (windowStep quota view a now op).2 = (windowStep quota view b now op).2 ∧
      AgreeAt quota now (windowStep quota view a now op).1 (windowStep quota view b now op).1 := by
  unfold windowStep
  cases view op with
  | hit k =>
    have hhit : (quota k).hit now (a k) = (quota k).hit now (b k) := by
      unfold Quota.hit
      rw [h k]
    dsimp only
    rw [hhit]
    exact ⟨rfl, h.update k _⟩
  | drop k => exact ⟨rfl, h.update k none⟩
  | dropAll => exact ⟨rfl, fun _ => rfl⟩
  | pass => exact ⟨rfl, h⟩

theorem AgreeAt.forget (h : AgreeAt quota now a b) {b' : κ → Option Window}
    (hforget : ∀ k, b' k = b k ∨ b' k = none ∧ ∀ w, b k = some w → (quota k).isLive now w = false) :
    AgreeAt quota now a b' := by
  intro k
  rw [h k]
  rcases hforget k with heq | ⟨hnone, hended⟩
  · rw [heq]
  · rw [hnone]
    cases hb : b k with
    | none => rfl
    | some w =>
      rw [Option.filter_some, if_neg (by simp [hended w hb])]
      rfl

/-! ### How many are admitted -/

/-- The operation forgets the window of the key. -/
def WindowOp.drops (k : κ) : WindowOp κ → Bool
  | .drop k' => decide (k' = k)
  | .dropAll => true
  | _ => false

variable (quota view) in
/-- An admitted hit of the key before an instant. -/
def admitsBefore (k : κ) (stop : ℕ) (e : Answered α (Option ℕ)) : Bool :=
  match view e.op with
  | .hit k' => decide (k' = k) && decide (e.now < stop) && e.result.any fun c => decide (c ≤ (quota k).limit)
  | _ => false

variable (view) in
/-- What is answered until the key is dropped. -/
def untilDropped (k : κ) (events : List (Answered α (Option ℕ))) : List (Answered α (Option ℕ)) :=
  events.takeWhile fun e => !(view e.op).drops k

/-- Windows are counted from one. -/
def Counted (cells : κ → Option Window) : Prop := ∀ k w, cells k = some w → 1 ≤ w.count

theorem Quota.one_le_hit (q : Quota) (o : Option Window) (now : ℕ) : 1 ≤ (q.hit now o).count := by
  unfold hit
  cases o.filter (q.isLive now) with
  | none => exact le_refl 1
  | some w =>
    dsimp only
    omega

theorem Counted.step {cells : κ → Option Window} (h : Counted cells) (now : ℕ) (op : α) :
    Counted (windowStep quota view cells now op).1 := by
  unfold windowStep
  intro k' w hw
  cases hv : view op with
  | hit k =>
    rw [hv] at hw
    dsimp only at hw
    by_cases hk : k' = k
    · subst hk
      rw [Function.update_self] at hw
      rw [← Option.some.inj hw]
      exact (quota k').one_le_hit _ _
    · rw [Function.update_of_ne hk] at hw
      exact h k' w hw
  | drop k =>
    rw [hv] at hw
    dsimp only at hw
    by_cases hk : k' = k
    · subst hk
      rw [Function.update_self] at hw
      cases hw
    · rw [Function.update_of_ne hk] at hw
      exact h k' w hw
  | dropAll =>
    rw [hv] at hw
    cases hw
  | pass =>
    rw [hv] at hw
    exact h k' w hw

theorem none_admitted_late {k : κ} {stop : ℕ} {ops : List (ℕ × α)} (hlate : ∀ p ∈ ops, stop ≤ p.1)
    (cells : κ → Option Window) :
    (untilDropped view k (traceOf (windowStep quota view) cells ops)).countP (admitsBefore quota view k stop) = 0 := by
  rw [List.countP_eq_zero]
  have hnow : ∀ ops : List (ℕ × α), (∀ p ∈ ops, stop ≤ p.1) → ∀ cells : κ → Option Window,
      ∀ e ∈ traceOf (windowStep quota view) cells ops, stop ≤ e.now := by
    intro ops
    induction ops with
    | nil => exact fun _ _ e he => (List.not_mem_nil he).elim
    | cons p ops ih =>
      obtain ⟨now, op⟩ := p
      intro hlate cells e he
      rcases List.mem_cons.mp he with rfl | he
      · exact hlate _ List.mem_cons_self
      · exact ih (fun p hp => hlate p (List.mem_cons_of_mem _ hp)) _ e he
  intro e he
  have hle := hnow ops hlate cells e ((List.takeWhile_sublist _).mem he)
  unfold admitsBefore
  cases view e.op with
  | hit k' => simp [not_lt.mpr hle]
  | _ => simp

/-- An operation that is not a hit of the key and does not drop it leaves its window. -/
theorem windowStep_other {k : κ} {op : α} (hhit : view op ≠ .hit k) (hdrop : (view op).drops k = false)
    (cells : κ → Option Window) (now : ℕ) : (windowStep quota view cells now op).1 k = cells k := by
  unfold windowStep
  cases hv : view op with
  | hit k' =>
    rw [hv] at hhit
    exact Function.update_of_ne (fun hk => hhit (congrArg WindowOp.hit hk.symm)) _ _
  | drop k' =>
    rw [hv] at hdrop
    exact Function.update_of_ne (Ne.symm (of_decide_eq_false hdrop)) _ _
  | dropAll =>
    rw [hv] at hdrop
    cases hdrop
  | pass => rfl

variable (quota) in
theorem windowStep_hit {k : κ} {op : α} (hv : view op = .hit k) (cells : κ → Option Window) (now : ℕ) :
    (windowStep quota view cells now op).1 k = some ((quota k).hit now (cells k)) ∧
      (windowStep quota view cells now op).2 = some ((quota k).hit now (cells k)).count := by
  unfold windowStep
  rw [hv]
  exact ⟨Function.update_self _ _ _, rfl⟩

theorem admitsBefore_other {k : κ} {op : α} (hhit : view op ≠ .hit k) (stop now : ℕ) (r : Option ℕ) :
    admitsBefore quota view k stop ⟨now, op, r⟩ = false := by
  unfold admitsBefore
  cases hv : view op with
  | hit k' =>
    have hne : k' ≠ k := fun hk => hhit (hv.trans (congrArg WindowOp.hit hk))
    simp [hne]
  | _ => rfl

theorem admitsBefore_hit {k : κ} {op : α} (hv : view op = .hit k) {stop now c : ℕ}
    (h : admitsBefore quota view k stop ⟨now, op, some c⟩ = true) : c ≤ (quota k).limit := by
  unfold admitsBefore at h
  dsimp only at h
  rw [hv] at h
  simp only [Option.any_some, Bool.and_eq_true, decide_eq_true_eq] at h
  exact h.2

theorem admitted_le {k : κ} {start : ℕ} {ops : List (ℕ × α)} (hmono : ops.Pairwise fun p q => p.1 ≤ q.1)
    {cells : κ → Option Window} {count : ℕ} (hcell : cells k = some ⟨count, start⟩) :
    (untilDropped view k (traceOf (windowStep quota view) cells ops)).countP
      (admitsBefore quota view k (start + (quota k).length)) ≤ (quota k).limit - count := by
  induction ops generalizing cells count with
  | nil => exact Nat.zero_le _
  | cons p ops ih =>
    obtain ⟨now, op⟩ := p
    obtain ⟨hfirst, hrest⟩ := List.pairwise_cons.mp hmono
    by_cases hlate : start + (quota k).length ≤ now
    · -- the window has ended, and no later operation is in it
      have hall : ∀ q ∈ (now, op) :: ops, start + (quota k).length ≤ q.1 := by
        intro q hq
        rcases List.mem_cons.mp hq with rfl | hq
        · exact hlate
        · exact le_trans hlate (hfirst q hq)
      exact le_of_eq_of_le (none_admitted_late hall cells) (Nat.zero_le _)
    unfold traceOf untilDropped
    cases hdrop : (view op).drops k with
    | true =>
      rw [List.takeWhile_cons_of_neg (by simp [hdrop])]
      exact Nat.zero_le _
    | false =>
      rw [List.takeWhile_cons_of_pos (by simp [hdrop]), List.countP_cons]
      by_cases hhit : view op = .hit k
      · have hlive : (quota k).isLive now ⟨count, start⟩ = true := decide_eq_true (not_le.mp hlate)
        obtain ⟨hnext, hresult⟩ := windowStep_hit quota hhit cells now
        rw [hcell, Quota.hit_live hlive] at hnext hresult
        dsimp only at hnext hresult
        have hmore := ih hrest hnext
        rw [hresult]
        unfold untilDropped at hmore
        by_cases hadmit : admitsBefore quota view k (start + (quota k).length)
            ⟨now, op, some (min (count + 1) ((quota k).limit + 1))⟩ = true
        · have hle := admitsBefore_hit hhit hadmit
          rw [if_pos hadmit]
          omega
        · rw [if_neg hadmit]
          omega
      · have hsame : (windowStep quota view cells now op).1 k = some ⟨count, start⟩ :=
          (windowStep_other hhit hdrop cells now).trans hcell
        have hmore := ih hrest hsame
        rw [if_neg (by rw [admitsBefore_other hhit]; simp)]
        exact hmore

/-- **A window admits at most its limit**, from the hit that opens it until the key is dropped. -/
theorem window_bound {ops : List (ℕ × α)} (hmono : ops.Pairwise fun p q => p.1 ≤ q.1) {cells : κ → Option Window}
    (hcounted : Counted cells) {k : κ} (hpos : 0 < (quota k).limit) {before rest : List (Answered α (Option ℕ))}
    {e : Answered α (Option ℕ)} (htrace : traceOf (windowStep quota view) cells ops = before ++ e :: rest)
    (hhit : view e.op = .hit k) (hopens : e.result = some 1) :
    (untilDropped view k (e :: rest)).countP (admitsBefore quota view k (e.now + (quota k).length)) ≤
      (quota k).limit := by
  have hstep : ∀ (cells : κ → Option Window) (now : ℕ) (a : α), Counted cells →
      Counted (windowStep quota view cells now a).1 := fun _ now a h => h.step now a
  obtain ⟨cells', ops', hcounted, hsub, htrace⟩ := traceOf_split hstep hcounted htrace
  cases ops' with
  | nil => cases htrace
  | cons p ops' =>
    obtain ⟨now, op⟩ := p
    obtain ⟨rfl, rfl⟩ := List.cons_eq_cons.mp htrace
    dsimp only at hhit hopens
    obtain ⟨hnext, hresult⟩ := windowStep_hit quota hhit cells' now
    have hopened : (quota k).hit now (cells' k) = ⟨1, now⟩ := by
      rw [hresult] at hopens
      have hone := Option.some.inj hopens
      cases hcell : cells' k with
      | none => exact Quota.hit_none
      | some w =>
        cases hlive : (quota k).isLive now w with
        | false => exact Quota.hit_ended hlive
        | true =>
          have hw := hcounted k w hcell
          rw [hcell, Quota.hit_live hlive] at hone
          dsimp only at hone
          omega
    rw [hopened] at hnext
    have hrest : (untilDropped view k (traceOf (windowStep quota view) (windowStep quota view cells' now op).1 ops')).countP
        (admitsBefore quota view k (now + (quota k).length)) ≤ (quota k).limit - 1 :=
      admitted_le (hmono.sublist ((List.sublist_cons_self _ _).trans hsub)) hnext
    unfold untilDropped at hrest ⊢
    rw [List.takeWhile_cons_of_pos (by rw [hhit]; rfl), List.countP_cons]
    dsimp only
    split <;> omega

end Counter

end TeamInbox.Lib
