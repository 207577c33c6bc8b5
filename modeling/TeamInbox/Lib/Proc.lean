import TeamInbox.Lib.Table
import TeamInbox.Lib.Run

/-!
# TeamInbox.Lib.Proc — threads of atomic operations and their rely–guarantee logic

A `Proc` is a procedure: a tree of atomic operations `op : Op`, each answered by a value of
`Resp op`, that ends with a value or an error.  A `System` says what an operation does to the shared
state `σ` when the thread `t` performs it and the scheduler supplies `f : φ` (how a statement fails,
which identifier is drawn, …); an operation without a result is blocked.  It also says which threads
may start and what the environment may do, a crash that ends threads included.  A `Pool` is the state
with its threads, and `System.step` performs one operation of one thread, one start or one step of
the environment.

A `Contract` is a rely–guarantee specification: an invariant of the shared state, what a thread may
rely on while others run, what is assumed of every operation and what every operation has to meet.
`Wp K t p s Q` says that `p`, run by `t` from `s`, keeps the contract and ends in `Q`.
`Contract.pool_sound` is the rule of the logic: when every start gives a thread that keeps the
contract and the environment respects it, the invariant holds in every state of every run.
-/

namespace TeamInbox.Lib

/-- A procedure: a tree of atomic operations. -/
inductive Proc (Op : Type) (Resp : Op → Type) (ε α : Type) : Type where
  | done (a : α)
  | fail (e : ε)
  | act (op : Op) (k : Resp op → Proc Op Resp ε α)

namespace Proc

variable {Op : Type} {Resp : Op → Type} {ε α β γ : Type}

/-- Sequencing; an error skips the continuation. -/
def bind : Proc Op Resp ε α → (α → Proc Op Resp ε β) → Proc Op Resp ε β
  | done a, g => g a
  | fail e, _ => fail e
  | act op k, g => act op fun b => bind (k b) g

instance : Monad (Proc Op Resp ε) where
  pure := done
  bind := bind

/-- One operation. -/
def call (op : Op) : Proc Op Resp ε (Resp op) := act op done

/-- Run a procedure and hand its outcome, value or error, to the caller. -/
def attempt : Proc Op Resp ε α → Proc Op Resp ε (Except ε α)
  | done a => done (.ok a)
  | fail e => done (.error e)
  | act op k => act op fun b => attempt (k b)

/-- Unwrap an outcome: its error becomes the error of the procedure. -/
def ofExcept : Except ε α → Proc Op Resp ε α
  | .ok a => done a
  | .error e => fail e

/-- Run `p` for every element, in order. -/
def forEach (l : List γ) (p : γ → Proc Op Resp ε Unit) : Proc Op Resp ε Unit :=
  match l with
  | [] => done ()
  | x :: l => bind (p x) fun _ => forEach l p

@[simp] theorem bind_act (op : Op) (k : Resp op → Proc Op Resp ε α) (g : α → Proc Op Resp ε β) :
    (act op k).bind g = act op fun b => (k b).bind g := rfl

/-- Every operation `p` can perform satisfies `P`. -/
def AllOps (P : Op → Prop) : Proc Op Resp ε α → Prop
  | done _ => True
  | fail _ => True
  | act op k => P op ∧ ∀ b, AllOps P (k b)

variable {P : Op → Prop}

theorem AllOps.bind {p : Proc Op Resp ε α} {g : α → Proc Op Resp ε β} (hp : AllOps P p)
    (hg : ∀ a, AllOps P (g a)) : AllOps P (p.bind g) := by
  induction p with
  | done a => exact hg a
  | fail e => trivial
  | act op k ih => exact ⟨hp.1, fun b => ih b (hp.2 b)⟩

theorem AllOps.attempt {p : Proc Op Resp ε α} (hp : AllOps P p) : AllOps P p.attempt := by
  induction p with
  | done a => trivial
  | fail e => trivial
  | act op k ih => exact ⟨hp.1, fun b => ih b (hp.2 b)⟩

theorem AllOps.ofExcept (x : Except ε α) : AllOps P (Proc.ofExcept x : Proc Op Resp ε α) := by
  cases x with
  | ok a => trivial
  | error e => trivial

theorem AllOps.mono {Q : Op → Prop} {p : Proc Op Resp ε α} (hp : AllOps P p)
    (hPQ : ∀ op, P op → Q op) : AllOps Q p := by
  induction p with
  | done a => trivial
  | fail e => trivial
  | act op k ih => exact ⟨hPQ op hp.1, fun b => ih b (hp.2 b)⟩

/-- Every value `p` can return satisfies `R`. -/
def Returns (R : α → Prop) : Proc Op Resp ε α → Prop
  | done a => R a
  | fail _ => True
  | act _ k => ∀ b, Returns R (k b)

theorem Returns.bind {R : β → Prop} (p : Proc Op Resp ε α) {g : α → Proc Op Resp ε β}
    (hg : ∀ a, Returns R (g a)) : Returns R (p.bind g) := by
  induction p with
  | done a => exact hg a
  | fail e => trivial
  | act op k ih => exact fun b => ih b

theorem Returns.bind_of {R : α → Prop} {R' : β → Prop} {p : Proc Op Resp ε α} {g : α → Proc Op Resp ε β}
    (hp : Returns R p) (hg : ∀ a, R a → Returns R' (g a)) : Returns R' (p.bind g) := by
  induction p with
  | done a => exact hg a hp
  | fail e => trivial
  | act op k ih => exact fun b => ih b (hp b)

theorem Returns.attempt {R : α → Prop} {p : Proc Op Resp ε α} (h : Returns R p) :
    Returns (fun r => ∀ a, r = .ok a → R a) p.attempt := by
  induction p with
  | done a => exact fun a' ha => Except.ok.inj ha ▸ h
  | fail e => exact fun a ha => by cases ha
  | act op k ih => exact fun b => ih b (h b)

end Proc

/-! ### Systems of threads -/

/-- A thread: its number and what it was started for. -/
structure Who (κ : Type) where
  id : ℕ
  ctx : κ

/-- Threads over a shared state `σ`: contexts `κ`, scheduler values `φ`, starts `B`, environment
steps `E`. -/
structure System (Op : Type) (Resp : Op → Type) (ε σ κ φ B E : Type) where
  /-- Perform an operation; `none` while it is blocked. -/
  exec : Who κ → (op : Op) → φ → σ → Option (Resp op × σ)
  /-- The thread a start gives, and the state it leaves. -/
  start : B → σ → Option (κ × Proc Op Resp ε Unit × σ)
  env : E → σ → Option σ
  /-- The environment step ends the threads of this context. -/
  kills : E → κ → Bool

structure Thread (Op : Type) (Resp : Op → Type) (ε κ : Type) where
  ctx : κ
  proc : Proc Op Resp ε Unit

/-- The shared state and the threads; a thread that ended stays as `done`. -/
structure Pool (Op : Type) (Resp : Op → Type) (ε σ κ : Type) where
  world : σ
  threads : Table ℕ (Thread Op Resp ε κ)

inductive PoolAction (φ B E : Type)
  | run (id : ℕ) (f : φ)
  | start (id : ℕ) (b : B)
  | env (e : E)

variable {Op : Type} {Resp : Op → Type} {ε σ κ φ B E α β γ : Type}

/-- A pool without threads. -/
def Pool.ofWorld (w : σ) : Pool Op Resp ε σ κ := ⟨w, Table.empty⟩

/-- One operation of one thread, one start, or one step of the environment. -/
def System.step (S : System Op Resp ε σ κ φ B E) (s : Pool Op Resp ε σ κ) :
    PoolAction φ B E → Option (Pool Op Resp ε σ κ)
  | .run id f =>
    match s.threads.find? id with
    | some ⟨ctx, .act op k⟩ =>
      match S.exec ⟨id, ctx⟩ op f s.world with
      | some (b, w) => some ⟨w, s.threads.put id ⟨ctx, k b⟩⟩
      | none => none
    | _ => none
  | .start id b =>
    match s.threads.find? id, S.start b s.world with
    | none, some (ctx, p, w) => some ⟨w, s.threads.put id ⟨ctx, p⟩⟩
    | _, _ => none
  | .env e =>
    match S.env e s.world with
    | some w => some ⟨w, s.threads.updateAll (fun _ th => S.kills e th.ctx = true)
        (fun th => { th with proc := .done () })⟩
    | none => none

/-- The performed operation satisfies `C`. -/
def OpCond (C : Who κ → Op → φ → σ → Prop) (s : Pool Op Resp ε σ κ) : PoolAction φ B E → Prop
  | .run id f => ∀ ctx op k, s.threads.find? id = some ⟨ctx, .act op k⟩ → C ⟨id, ctx⟩ op f s.world
  | _ => True

/-! ### The logic -/

/-- A rely–guarantee specification. -/
structure Contract (Op σ κ φ : Type) where
  inv : σ → Prop
  /-- What a thread may rely on between two of its operations. -/
  rely : Who κ → σ → σ → Prop
  /-- What is assumed of an operation when it is performed. -/
  admits : Who κ → Op → φ → σ → Prop
  /-- What an operation has to meet when it is performed. -/
  ok : Who κ → Op → φ → σ → Prop
  refl : ∀ t s, rely t s s
  trans : ∀ t s₁ s₂ s₃, rely t s₁ s₂ → rely t s₂ s₃ → rely t s₁ s₃

/-- An operation performed in `s` with result `s'` keeps the contract. -/
structure Contract.Keeps (K : Contract Op σ κ φ) (t : Who κ) (op : Op) (f : φ) (s s' : σ) : Prop where
  ok : K.ok t op f s
  inv : K.inv s'
  others : ∀ u, u.id ≠ t.id → K.rely u s s'

section Logic

variable (S : System Op Resp ε σ κ φ B E) (K : Contract Op σ κ φ) (t : Who κ)

/-- `p`, run by `t` from `s`, keeps the contract at every operation, and the outcome of a finished
run satisfies `Q`. -/
def Wp : Proc Op Resp ε α → σ → (Except ε α → σ → Prop) → Prop
  | .done a, s, Q => Q (.ok a) s
  | .fail e, s, Q => Q (.error e) s
  | .act op k, s, Q => ∀ s₁, K.rely t s s₁ → K.inv s₁ → ∀ f b s₂, K.admits t op f s₁ →
    S.exec t op f s₁ = some (b, s₂) → K.Keeps t op f s₁ s₂ ∧ Wp (k b) s₂ Q

/-- The assertion survives what the other threads do. -/
def Stable (P : σ → Prop) : Prop := ∀ s s', P s → K.rely t s s' → K.inv s' → P s'

variable {S K t}

theorem Stable.and {P P' : σ → Prop} (h : Stable K t P) (h' : Stable K t P') :
    Stable K t fun s => P s ∧ P' s :=
  fun s s' hP hR hI => ⟨h s s' hP.1 hR hI, h' s s' hP.2 hR hI⟩

theorem stable_const (p : Prop) : Stable K t fun _ => p := fun _ _ h _ _ => h

theorem Wp.mono {p : Proc Op Resp ε α} {s : σ} {Q Q' : Except ε α → σ → Prop} (h : Wp S K t p s Q)
    (hQ : ∀ r s', Q r s' → Q' r s') : Wp S K t p s Q' := by
  induction p generalizing s with
  | done a => exact hQ _ _ h
  | fail e => exact hQ _ _ h
  | act op k ih =>
    intro s₁ hR hI f b s₂ hA hx
    obtain ⟨hkeep, hk⟩ := h s₁ hR hI f b s₂ hA hx
    exact ⟨hkeep, ih b hk⟩

/-- **Sequencing**: the continuation runs after a value, an error is passed on. -/
theorem Wp.bind {p : Proc Op Resp ε α} {g : α → Proc Op Resp ε β} {s : σ}
    {Q : Except ε β → σ → Prop} (h : Wp S K t p s fun r s' => match r with
      | .ok a => Wp S K t (g a) s' Q
      | .error e => Q (.error e) s') : Wp S K t (p.bind g) s Q := by
  induction p generalizing s with
  | done a => exact h
  | fail e => exact h
  | act op k ih =>
    intro s₁ hR hI f b s₂ hA hx
    obtain ⟨hkeep, hk⟩ := h s₁ hR hI f b s₂ hA hx
    exact ⟨hkeep, ih b hk⟩

theorem Wp.seq {p : Proc Op Resp ε α} {g : α → Proc Op Resp ε β} {s : σ}
    {Q : Except ε β → σ → Prop} {M : Except ε α → σ → Prop} (hp : Wp S K t p s M)
    (hok : ∀ a s', M (.ok a) s' → Wp S K t (g a) s' Q)
    (herr : ∀ e s', M (.error e) s' → Q (.error e) s') : Wp S K t (p.bind g) s Q := by
  refine Wp.bind (hp.mono fun r s' hM => ?_)
  cases r with
  | ok a => exact hok a s' hM
  | error e => exact herr e s' hM

/-- **One operation** under a stable assertion. -/
theorem Wp.act {op : Op} {k : Resp op → Proc Op Resp ε α} {s : σ} {Q : Except ε α → σ → Prop}
    {P : σ → Prop} (hP : Stable K t P) (hs : P s)
    (h : ∀ s₁ f b s₂, P s₁ → K.inv s₁ → K.admits t op f s₁ → S.exec t op f s₁ = some (b, s₂) →
      K.Keeps t op f s₁ s₂ ∧ Wp S K t (k b) s₂ Q) : Wp S K t (.act op k) s Q :=
  fun s₁ hR hI f b s₂ hA hx => h s₁ f b s₂ (hP s s₁ hs hR hI) hI hA hx

/-- **Frame**: where every thread relies on the same, a stable assertion survives the procedure. -/
theorem Wp.frame {p : Proc Op Resp ε α} {s : σ} {Q : Except ε α → σ → Prop} {P : σ → Prop}
    (hsame : ∀ u s s', K.rely u s s' → K.rely t s s') (hP : Stable K t P) (hs : P s)
    (h : Wp S K t p s Q) : Wp S K t p s fun r s' => Q r s' ∧ P s' := by
  induction p generalizing s with
  | done a => exact ⟨h, hs⟩
  | fail e => exact ⟨h, hs⟩
  | act op k ih =>
    intro s₁ hR hI f b s₂ hA hx
    obtain ⟨hkeep, hk⟩ := h s₁ hR hI f b s₂ hA hx
    have hown : K.rely t s₁ s₂ := hsame _ _ _ (hkeep.others ⟨t.id + 1, t.ctx⟩ (Nat.succ_ne_self _))
    exact ⟨hkeep, ih b (hP s₁ s₂ (hP s s₁ hs hR hI) hown hkeep.inv) hk⟩

/-- What other threads do before the next operation is covered by the rely. -/
theorem Wp.stable {p : Proc Op Resp ε α} {s s' : σ} (h : Wp S K t p s fun _ _ => True)
    (hR : K.rely t s s') : Wp S K t p s' fun _ _ => True := by
  cases p with
  | done a => trivial
  | fail e => trivial
  | act op k => exact fun s₁ hR₁ => h s₁ (K.trans t s s' s₁ hR hR₁)

end Logic

/-! ### Procedures without errors of their own -/

section Total

variable {S : System Op Resp Empty σ κ φ B E} {K : Contract Op σ κ φ} {t : Who κ}

/-- The procedure keeps the contract and leaves `M` of its value and the state. -/
def Yields (S : System Op Resp Empty σ κ φ B E) (K : Contract Op σ κ φ) (t : Who κ)
    (p : Proc Op Resp Empty α) (s : σ) (M : α → σ → Prop) : Prop :=
  Wp S K t p s fun r s' => ∀ a, r = .ok a → M a s'

theorem Yields.pure {a : α} {s : σ} {M : α → σ → Prop} (h : M a s) : Yields S K t (.done a) s M :=
  fun _ ha => Except.ok.inj ha ▸ h

theorem Yields.bind {p : Proc Op Resp Empty α} {g : α → Proc Op Resp Empty β} {s : σ}
    {M : α → σ → Prop} {N : β → σ → Prop} (hp : Yields S K t p s M)
    (hg : ∀ a s', M a s' → Yields S K t (g a) s' N) : Yields S K t (p.bind g) s N :=
  Wp.seq hp (fun a s' h => hg a s' (h a rfl)) fun e => e.elim

theorem Yields.frame {p : Proc Op Resp Empty α} {s : σ} {M : α → σ → Prop} {P : σ → Prop}
    (hsame : ∀ u s s', K.rely u s s' → K.rely t s s') (hP : Stable K t P) (hs : P s)
    (h : Yields S K t p s M) : Yields S K t p s fun a s' => M a s' ∧ P s' :=
  (Wp.frame hsame hP hs h).mono fun _ _ h a ha => ⟨h.1 a ha, h.2⟩

theorem Yields.call {op : Op} {s : σ} {A : σ → Prop} {M : Resp op → σ → Prop} (hA : Stable K t A)
    (hs : A s) (h : ∀ s₁ f b s₂, A s₁ → K.inv s₁ → K.admits t op f s₁ → S.exec t op f s₁ = some (b, s₂) →
      K.Keeps t op f s₁ s₂ ∧ M b s₂) : Yields S K t (Proc.call op) s M :=
  Wp.act hA hs fun s₁ f b s₂ hA₁ hI hadm hx =>
    ⟨(h s₁ f b s₂ hA₁ hI hadm hx).1, fun _ ha => Except.ok.inj ha ▸ (h s₁ f b s₂ hA₁ hI hadm hx).2⟩

end Total

/-! ### Soundness -/

namespace Contract

variable (S : System Op Resp ε σ κ φ B E) (K : Contract Op σ κ φ)

/-- The invariant holds and every thread keeps the contract from here on. -/
def PoolInv (s : Pool Op Resp ε σ κ) : Prop :=
  K.inv s.world ∧ ∀ id th, s.threads.find? id = some th →
    Wp S K ⟨id, th.ctx⟩ th.proc s.world fun _ _ => True

/-- Starts and the environment respect the contract. -/
structure Respected : Prop where
  start : ∀ b s ctx p s', K.inv s → S.start b s = some (ctx, p, s') →
    K.inv s' ∧ (∀ u, K.rely u s s') ∧ ∀ id, Wp S K ⟨id, ctx⟩ p s' fun _ _ => True
  env : ∀ e s s', K.inv s → S.env e s = some s' →
    K.inv s' ∧ ∀ u, S.kills e u.ctx = false → K.rely u s s'

variable {S K}

theorem poolInv_ofWorld {w : σ} (h : K.inv w) : K.PoolInv S (Pool.ofWorld w) :=
  ⟨h, fun id th hth => by cases hth⟩

/-- One step of the pool: the contract goes on, and a performed operation met its guarantee. -/
theorem poolInv_step (hS : K.Respected S) {s s' : Pool Op Resp ε σ κ} {a : PoolAction φ B E}
    (hI : K.PoolInv S s) (hC : OpCond K.admits s a) (h : S.step s a = some s') :
    K.PoolInv S s' ∧ OpCond K.ok s a := by
  obtain ⟨hinv, hthreads⟩ := hI
  cases a with
  | run id f =>
    simp only [System.step] at h
    split at h
    · next ctx op k hth =>
      split at h
      · next b w hx =>
        obtain rfl := Option.some.inj h
        obtain ⟨hkeep, hk⟩ := hthreads id _ hth s.world (K.refl _ _) hinv f b w
          (hC ctx op k hth) hx
        refine ⟨⟨hkeep.inv, fun id' th' hth' => ?_⟩, fun ctx' op' k' hth' => ?_⟩
        · rw [Table.find?_put] at hth'
          by_cases hid : id' = id
          · subst hid
            rw [if_pos rfl] at hth'
            obtain rfl := Option.some.inj hth'
            exact hk
          · rw [if_neg hid] at hth'
            exact (hthreads id' th' hth').stable (hkeep.others ⟨id', th'.ctx⟩ hid)
        · rw [hth] at hth'
          cases hth'
          exact hkeep.ok
      · cases h
    · cases h
  | start id b =>
    simp only [System.step] at h
    split at h
    · next ctx p w hnone hstart =>
      obtain rfl := Option.some.inj h
      obtain ⟨hinv', hrely, hwp⟩ := hS.start b s.world ctx p w hinv hstart
      refine ⟨⟨hinv', fun id' th' hth' => ?_⟩, trivial⟩
      rw [Table.find?_put] at hth'
      by_cases hid : id' = id
      · subst hid
        rw [if_pos rfl] at hth'
        obtain rfl := Option.some.inj hth'
        exact hwp id'
      · rw [if_neg hid] at hth'
        exact (hthreads id' th' hth').stable (hrely _)
    · cases h
  | env e =>
    simp only [System.step] at h
    split at h
    · next w henv =>
      obtain rfl := Option.some.inj h
      obtain ⟨hinv', hrely⟩ := hS.env e s.world w hinv henv
      refine ⟨⟨hinv', fun id' th' hth' => ?_⟩, trivial⟩
      rw [Table.find?_updateAll] at hth'
      obtain ⟨th, hth, rfl⟩ := Option.map_eq_some_iff.mp hth'
      by_cases hkill : S.kills e th.ctx = true
      · rw [if_pos hkill]
        trivial
      · rw [if_neg hkill]
        exact (hthreads id' th hth).stable (hrely ⟨id', th.ctx⟩ (by simpa using hkill))
    · cases h

/-- **Soundness.**  From a pool that keeps the contract, the invariant holds in every state of every
run whose operations meet the assumption, and every performed operation meets its guarantee. -/
theorem pool_sound (hS : K.Respected S) {s : Pool Op Resp ε σ κ} (hI : K.PoolInv S s)
    {as : List (PoolAction φ B E)} (hC : Meets S.step (OpCond K.admits) s as) :
    Always S.step (fun s => K.inv s.world) s as ∧ Meets S.step (OpCond K.ok) s as := by
  induction as generalizing s with
  | nil => exact ⟨hI.1, trivial⟩
  | cons a as ih =>
    refine ⟨⟨hI.1, fun s' h => ?_⟩, fun s' h => ?_⟩
    · obtain ⟨hCa, hrest⟩ := hC s' h
      exact (ih (poolInv_step hS hI hCa h).1 hrest).1
    · obtain ⟨hCa, hrest⟩ := hC s' h
      obtain ⟨hI', hok⟩ := poolInv_step hS hI hCa h
      exact ⟨hok, (ih hI' hrest).2⟩

end Contract

end TeamInbox.Lib
