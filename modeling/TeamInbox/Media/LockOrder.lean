import TeamInbox.Media.Cleanup
import Mathlib.Data.String.Basic

/-!
# TeamInbox.Media.LockOrder — locks on hashes of keys

Transactions lock their keys in sorted order, and hold the locks to their end.  What is locked is the hash of a
key, though.  The order of the keys excludes a cycle of transactions that wait for each other if no key stands
between two keys of another hash that collide, and only then (`lockMediaKeys_iff`): the sorted order is one of
the locks exactly when the keys of one lock stand together.

Keys are of any linear order, such as that of `sort`, by UTF-16 units.
-/

namespace TeamInbox.Media

open TeamInbox.Lib

variable {κ : Type}

section Sorted

variable [LinearOrder κ]

/-- `[...new Set(keys)].sort()` -/
def sortedKeys (keys : List κ) : List κ := keys.dedup.insertionSort (· ≤ ·)

theorem sortedKeys_sorted (keys : List κ) : (sortedKeys keys).Pairwise (· < ·) := by
  have hle : (sortedKeys keys).Pairwise (· ≤ ·) := List.pairwise_insertionSort _ _
  have hnodup : (sortedKeys keys).Nodup := (List.perm_insertionSort _ _).nodup_iff.mpr (List.nodup_dedup keys)
  exact hle.imp₂ (fun a b h hne => lt_of_le_of_ne h hne) hnodup

theorem mem_sortedKeys {keys : List κ} {key : κ} : key ∈ sortedKeys keys ↔ key ∈ keys := by
  unfold sortedKeys
  rw [List.mem_insertionSort, List.mem_dedup]

theorem sortedKeys_pair {a b : κ} (h : a < b) : sortedKeys [a, b] = [a, b] := by
  have hnodup : [a, b].Nodup := by simpa using h.ne
  unfold sortedKeys
  rw [hnodup.dedup]
  simp [h.le]

end Sorted

/-- The advisory locks, and what each transaction has still to lock. -/
structure MediaLocks (κ : Type) where
  locks : Locks (BitVec 32)
  todo : ℕ → List κ

inductive LockAction
  /-- the next lock of `lockMediaKeys` is granted -/
  | lock (p : ℕ)
  /-- the transaction commits or is rolled back -/
  | finish (p : ℕ)
  deriving DecidableEq

section Steps

variable (hashtext : κ → BitVec 32)

def lockStart [LinearOrder κ] (keys : ℕ → List κ) : MediaLocks κ := ⟨.unlocked, fun p => sortedKeys (keys p)⟩

def lockStep (s : MediaLocks κ) : LockAction → Option (MediaLocks κ)
  | .lock p =>
    match s.todo p with
    | key :: todo => (s.locks.take p (hashtext key)).map fun locks => ⟨locks, Function.update s.todo p todo⟩
    | [] => none
  | .finish p => some ⟨s.locks.release p, Function.update s.todo p []⟩

/-- The next lock of `p` is held by `q`. -/
def WaitsFor (s : MediaLocks κ) (p q : ℕ) : Prop :=
  q ≠ p ∧ ∃ key todo, s.todo p = key :: todo ∧ s.locks.Owns q (hashtext key)

def Deadlocked (s : MediaLocks κ) : Prop := ∃ p, Relation.TransGen (WaitsFor hashtext s) p p

/-- Between two keys of one hash there is no key of another. -/
def Together [LinearOrder κ] (used : Set κ) : Prop :=
  ∀ a ∈ used, ∀ b ∈ used, ∀ c ∈ used, a < b → b < c → hashtext a = hashtext c → hashtext b = hashtext a

end Steps

variable {hashtext : κ → BitVec 32} {keys : ℕ → List κ} {s s' : MediaLocks κ} {used : Set κ} {p q r : ℕ}

theorem lockStep_lock (h : lockStep hashtext s (.lock p) = some s') : ∃ key todo locks, s.todo p = key :: todo ∧
    s.locks.take p (hashtext key) = some locks ∧ s' = ⟨locks, Function.update s.todo p todo⟩ := by
  unfold lockStep at h
  dsimp only at h
  cases htodo : s.todo p with
  | nil =>
    rw [htodo] at h
    cases h
  | cons key todo =>
    rw [htodo] at h
    obtain ⟨locks, htake, rfl⟩ := Option.map_eq_some_iff.mp h
    exact ⟨key, todo, locks, rfl, htake, rfl⟩

theorem lockStep_of_free {key : κ} {todo : List κ} (htodo : s.todo p = key :: todo)
    (hfree : ∀ q, s.locks.Owns q (hashtext key) → q = p) : ∃ locks, s.locks.take p (hashtext key) = some locks ∧
      lockStep hashtext s (.lock p) = some ⟨locks, Function.update s.todo p todo⟩ := by
  obtain ⟨locks, htake⟩ : ∃ locks, s.locks.take p (hashtext key) = some locks := by
    unfold Locks.take
    rw [dif_pos (Locks.free_iff.mpr hfree)]
    exact ⟨_, rfl⟩
  refine ⟨locks, htake, ?_⟩
  unfold lockStep
  dsimp only
  rw [htodo]
  dsimp only
  rw [htake]
  rfl

/-! ### What is held while a transaction waits -/

section Order

variable [LinearOrder κ]

/-- What `p` has still to lock comes after all it has locked. -/
structure InOrder (hashtext : κ → BitVec 32) (used : Set κ) (s : MediaLocks κ) (p : ℕ) : Prop where
  sorted : (s.todo p).Pairwise (· < ·)
  inUse : ∀ key ∈ s.todo p, key ∈ used
  behind : ∀ id, s.locks.Owns p id → ∃ key ∈ used, hashtext key = id ∧ ∀ next ∈ s.todo p, key < next

theorem inOrder_start (h : ∀ p, ∀ key ∈ keys p, key ∈ used) (p : ℕ) : InOrder hashtext used (lockStart keys) p where
  sorted := sortedKeys_sorted (keys p)
  inUse key hkey := h p key (mem_sortedKeys.mp hkey)
  behind id hid := by cases hid

theorem InOrder.step {a : LockAction} (h : ∀ p, InOrder hashtext used s p) (hstep : lockStep hashtext s a = some s') (q : ℕ) :
    InOrder hashtext used s' q := by
  cases a with
  | lock p =>
    obtain ⟨key, todo, locks, htodo, htake, rfl⟩ := lockStep_lock hstep
    by_cases hqp : q = p
    · subst hqp
      have hsorted := (h q).sorted
      rw [htodo] at hsorted
      obtain ⟨hfirst, hrest⟩ := List.pairwise_cons.mp hsorted
      have hmem : ∀ next ∈ todo, next ∈ s.todo q := fun next hnext => by
        rw [htodo]
        exact List.mem_cons_of_mem _ hnext
      refine ⟨?_, ?_, fun id hid => ?_⟩
      · simpa using hrest
      · simpa using fun next hnext => (h q).inUse next (hmem next hnext)
      · dsimp only
        rw [Function.update_self]
        rcases (Locks.owns_take htake).mp hid with hold | ⟨-, rfl⟩
        · obtain ⟨k, hk, hhash, hlt⟩ := (h q).behind id hold
          exact ⟨k, hk, hhash, fun next hnext => hlt next (hmem next hnext)⟩
        · exact ⟨key, (h q).inUse key (by rw [htodo]; exact List.mem_cons_self), rfl, hfirst⟩
    · refine ⟨?_, ?_, fun id hid => ?_⟩
      · simpa [hqp] using (h q).sorted
      · simpa [hqp] using (h q).inUse
      · dsimp only
        rw [Function.update_of_ne hqp]
        exact (h q).behind id (((Locks.owns_take htake).mp hid).resolve_right fun hnew => hqp hnew.1)
  | finish p =>
    obtain rfl := Option.some.inj hstep
    by_cases hqp : q = p
    · subst hqp
      refine ⟨?_, ?_, fun id hid => ?_⟩
      · simp
      · simp
      · exact absurd rfl (of_decide_eq_true (List.mem_filter.mp hid).2)
    · refine ⟨?_, ?_, fun id hid => ?_⟩
      · simpa [hqp] using (h q).sorted
      · simpa [hqp] using (h q).inUse
      · dsimp only
        rw [Function.update_of_ne hqp]
        exact (h q).behind id ((Locks.owns_release hqp).mp hid)

/-! ### Cycles -/

theorem waits_lt (htogether : Together hashtext used) (h : ∀ p, InOrder hashtext used s p)
    (hpq : WaitsFor hashtext s p q) (hqr : WaitsFor hashtext s q r) {key next : κ} {todo todo' : List κ}
    (hkey : s.todo p = key :: todo) (hnext : s.todo q = next :: todo') : key < next := by
  obtain ⟨-, key', todo₁, htodo, howns⟩ := hpq
  obtain ⟨hne, next', todo₂, htodo', howns'⟩ := hqr
  obtain ⟨rfl, -⟩ := List.cons.inj (hkey.symm.trans htodo)
  obtain ⟨rfl, -⟩ := List.cons.inj (hnext.symm.trans htodo')
  obtain ⟨held, hheld, hhash, hlt⟩ := (h q).behind _ howns
  have hbehind : held < next := hlt next (by rw [hnext]; exact List.mem_cons_self)
  have hnextUsed : next ∈ used := (h q).inUse next (by rw [hnext]; exact List.mem_cons_self)
  have hkeyUsed : key ∈ used := (h p).inUse key (by rw [hkey]; exact List.mem_cons_self)
  -- one lock is held by `q`, the other by `r`
  have hother : hashtext next ≠ hashtext key := fun heq => hne (howns'.unique (heq ▸ howns))
  rcases lt_trichotomy key next with hlt | rfl | hgt
  · exact hlt
  · exact absurd rfl hother
  · exact absurd ((htogether held hheld next hnextUsed key hkeyUsed hbehind hgt hhash).trans hhash) hother

theorem not_deadlocked (htogether : Together hashtext used) (h : ∀ p, InOrder hashtext used s p) :
    ¬ Deadlocked hashtext s := by
  rintro ⟨p, hcycle⟩
  -- the keys grow from the first of a chain to any that waits again
  have hchain : ∀ {q}, Relation.TransGen (WaitsFor hashtext s) p q → ∀ r, WaitsFor hashtext s q r → ∀ key todo next todo',
      s.todo p = key :: todo → s.todo q = next :: todo' → key < next := by
    intro q hpq
    induction hpq with
    | single hwait => exact fun r hqr key todo next todo' => waits_lt htogether h hwait hqr
    | @tail b c hpb hbc ih =>
      intro r hcr key todo next todo' hkey hnext
      obtain ⟨-, mid, todo'', hmid, -⟩ := id hbc
      exact (ih _ hbc key todo mid todo'' hkey hmid).trans (waits_lt htogether h hbc hcr hmid hnext)
  obtain ⟨q, hwait, -⟩ := Relation.TransGen.head'_iff.mp hcycle
  obtain ⟨-, key, todo, htodo, -⟩ := id hwait
  exact lt_irrefl key (hchain hcycle q hwait key todo key todo htodo htodo)

/-- Two transactions, of the keys `a` and `b` and of the keys `b` and `c`. -/
def crossing (a b c : κ) : ℕ → List κ
  | 0 => [a, b]
  | 1 => [b, c]
  | _ => []

theorem crossing_deadlocked {a b c : κ} (hab : a < b) (hbc : b < c) (hhash : hashtext a = hashtext c)
    (hne : hashtext b ≠ hashtext a) : ∃ s, runActions (lockStep hashtext) (lockStart (crossing a b c)) [.lock 0, .lock 1] = some s ∧
      Deadlocked hashtext s := by
  have hfirst : (lockStart (crossing a b c)).todo 0 = [a, b] := sortedKeys_pair hab
  have hsecond : (lockStart (crossing a b c)).todo 1 = [b, c] := sortedKeys_pair hbc
  obtain ⟨locks, htake, hstep⟩ := @lockStep_of_free _ hashtext _ _ _ _ hfirst fun q hq => by cases hq
  set s₁ : MediaLocks κ := ⟨locks, Function.update (lockStart (crossing a b c)).todo 0 [b]⟩
  have htodo : s₁.todo 1 = [b, c] := by
    rw [← hsecond]
    exact Function.update_of_ne Nat.one_ne_zero [b] _
  obtain ⟨locks', htake', hstep'⟩ := @lockStep_of_free _ hashtext _ _ _ _ htodo fun q hq => by
    rcases (Locks.owns_take htake).mp hq with hold | ⟨-, heq⟩
    · cases hold
    · exact absurd heq hne
  refine ⟨_, runActions_cons.mpr ⟨_, hstep, runActions_cons.mpr ⟨_, hstep', rfl⟩⟩, 0, ?_⟩
  have hwait : WaitsFor hashtext ⟨locks', Function.update s₁.todo 1 [c]⟩ 0 1 :=
    ⟨by decide, b, [], rfl, (Locks.owns_take htake').mpr (Or.inr ⟨rfl, rfl⟩)⟩
  have hwait' : WaitsFor hashtext ⟨locks', Function.update s₁.todo 1 [c]⟩ 1 0 :=
    ⟨by decide, c, [], rfl, (Locks.owns_take htake').mpr (Or.inl ((Locks.owns_take htake).mpr (Or.inr ⟨rfl, hhash.symm⟩)))⟩
  exact .tail (.single hwait) hwait'

/-- **When the sorted order of the keys excludes deadlocks**: exactly if keys that share a lock stand together. -/
theorem lockMediaKeys_iff (hashtext : κ → BitVec 32) (used : Set κ) :
    (∀ keys : ℕ → List κ, (∀ p, ∀ key ∈ keys p, key ∈ used) → ∀ actions,
      Always (lockStep hashtext) (fun s => ¬ Deadlocked hashtext s) (lockStart keys) actions) ↔ Together hashtext used := by
  constructor
  · intro h a ha b hb c hc hab hbc hhash
    by_contra hne
    obtain ⟨s, hrun, hdead⟩ := crossing_deadlocked hab hbc hhash hne
    have hkeys : ∀ p, ∀ key ∈ crossing a b c p, key ∈ used := by
      intro p key hkey
      match p with
      | 0 => rcases List.mem_pair.mp hkey with rfl | rfl <;> assumption
      | 1 => rcases List.mem_pair.mp hkey with rfl | rfl <;> assumption
      | _ + 2 => cases hkey
    exact always_iff_reached.mp (h _ hkeys [.lock 0, .lock 1]) [.lock 0, .lock 1] [] s rfl hrun hdead
  · intro htogether keys hkeys actions
    have hinv : Always (lockStep hashtext) (fun s => ∀ p, InOrder hashtext used s p) (lockStart keys) actions :=
      always_of_step (fun s a s' h hstep => InOrder.step h hstep) (inOrder_start hkeys) actions
    exact hinv.mono fun s h => not_deadlocked htogether h

end Order

/-- The middle one of three keys has a hash of its own. -/
def middleHash (key : String) : BitVec 32 := if key = "media/7/b" then 1 else 0

/-- Of three objects the outer two share a lock: two transactions wait for each other. -/
theorem sorted_locks_cross : ¬ ∀ keys : ℕ → List String, ∀ actions,
    Always (lockStep middleHash) (fun s => ¬ Deadlocked middleHash s) (lockStart keys) actions := by
  intro h
  obtain ⟨s, hrun, hdead⟩ := @crossing_deadlocked _ middleHash _ "media/7/a" "media/7/b" "media/7/c" (by decide) (by decide)
    (by decide) (by decide)
  exact always_iff_reached.mp (h _ [.lock 0, .lock 1]) [.lock 0, .lock 1] [] s rfl hrun hdead

end TeamInbox.Media
