import TeamInbox.Api.RateLimitStores
import TeamInbox.Lib.Retained
import Mathlib.Data.List.Induction

/-!
# TeamInbox.Api.LimiterRecency — which keys the store in memory holds

The map is the list of recency: a key that is incremented is deleted and inserted again, and what is evicted
stands first.  So the store holds the keys incremented last, each once, in that order; and the counter of a
held key is that of a store with room for everything that has seen what came since the key was inserted.
-/

namespace TeamInbox.Api.MemoryRateLimitStore

open TeamInbox.Lib

abbrev TimedOp := ℕ × RateLimitOp

def after (maxItems : ℕ) (ops : List TimedOp) : MemoryRateLimitStore :=
  ops.foldl (fun store o => (memoryStep store o.1 o.2).1) (empty maxItems)

/-- The key of an increment that does not throw. -/
def incremented : RateLimitOp → Option String
  | .increment key limit windowSeconds =>
    match assertRateLimitArguments limit windowSeconds with
    | .ok _ => some key
    | .error _ => none
  | _ => none

theorem incremented_of_ok {key : String} {limit windowSeconds : ℕ} (h : assertRateLimitArguments limit windowSeconds = .ok ()) :
    incremented (.increment key limit windowSeconds) = some key := by
  unfold incremented
  dsimp only
  rw [h]

theorem incremented_of_error {key : String} {limit windowSeconds : ℕ} {e : RangeError}
    (h : assertRateLimitArguments limit windowSeconds = .error e) :
    incremented (.increment key limit windowSeconds) = none := by
  unfold incremented
  dsimp only
  rw [h]

def incrementedKeys (ops : List TimedOp) : List String := ops.filterMap fun o => incremented o.2

def Held (store : MemoryRateLimitStore) (key : String) : Prop := key ∈ store.counters.map Prod.fst

/-- The increment with which a held key was inserted last, and what came since. -/
structure LastInsertion (maxItems : ℕ) (ops : List TimedOp) (key : String) (before since : List TimedOp)
    (o : TimedOp) : Prop where
  eq : ops = before ++ o :: since
  inserts : incremented o.2 = some key
  not_held : ¬ (after maxItems before).Held key
  held : ∀ part, part <+: since → (after maxItems (before ++ o :: part)).Held key

theorem after_concat (maxItems : ℕ) (ops : List TimedOp) (o : TimedOp) :
    after maxItems (ops ++ [o]) = (memoryStep (after maxItems ops) o.1 o.2).1 := by
  unfold after
  rw [List.foldl_append]
  rfl

variable {store : MemoryRateLimitStore} {key key' : String} {limit windowSeconds now maxItems : ℕ}
  {entry : CounterEntry} {op : RateLimitOp} {ops : List TimedOp} {o : TimedOp}

/-- The entry that an increment leaves for its key. -/
def entryAfter (store : MemoryRateLimitStore) (now : ℕ) (key : String) (limit windowSeconds : ℕ) : CounterEntry :=
  match store.counters.lookup key with
  | none => ⟨1, now⟩
  | some entry => nextEntry entry now limit (windowSeconds * 1000)

theorem lookup_none_iff : store.counters.lookup key = none ↔ ¬ store.Held key := by
  unfold Held
  rw [List.lookup_eq_none_iff]
  constructor
  · intro h hmem
    obtain ⟨c, hc, rfl⟩ := List.mem_map.mp hmem
    exact absurd (h c hc) (by simp)
  · intro h c hc
    exact bne_iff_ne.mpr fun hkey => h (List.mem_map.mpr ⟨c, hc, hkey.symm⟩)

theorem step_ok (h : assertRateLimitArguments limit windowSeconds = .ok ()) (hlen : store.counters.length ≤ store.maxItems) :
    (memoryStep store now (.increment key limit windowSeconds)).1 = { store with
      counters := keepLast store.maxItems
        ((store.counters.filter fun c => decide (c.1 ≠ key)) ++ [(key, store.entryAfter now key limit windowSeconds)]) } := by
  unfold entryAfter
  cases hentry : store.counters.lookup key with
  | none =>
    have hall : ∀ c ∈ store.counters, decide (c.1 ≠ key) = true := by
      intro c hc
      refine decide_eq_true fun hkey => lookup_none_iff.mp hentry ?_
      exact List.mem_map.mpr ⟨c, hc, hkey⟩
    rw [step_none h hentry, List.filter_eq_self.mpr hall]
    rfl
  | some entry =>
    have hheld : store.Held key := by
      by_contra hnot
      rw [lookup_none_iff.mpr hnot] at hentry
      cases hentry
    obtain ⟨c, hc, hkey⟩ := List.mem_map.mp hheld
    have hlt : (store.counters.filter fun c => decide (c.1 ≠ key)).length < store.counters.length := by
      refine List.length_filter_lt_length_iff_exists.mpr ⟨c, hc, ?_⟩
      simp [hkey]
    rw [step_some h hentry, keepLast_of_le]
    rw [List.length_append, List.length_singleton]
    omega

theorem step_quiet (h : incremented op = none) : ((memoryStep store now op).1.counters).Sublist store.counters := by
  cases op with
  | increment key limit windowSeconds =>
    cases hassert : assertRateLimitArguments limit windowSeconds with
    | error e =>
      rw [step_error hassert]
    | ok u =>
      rw [incremented_of_ok hassert] at h
      cases h
  | reset key => exact List.filter_sublist
  | clear => exact List.nil_sublist _
  | cleanup locked => exact List.Sublist.refl _

theorem step_idle (h : incremented op = none) (hforgets : ∀ key, op.forgets key = false) :
    (memoryStep store now op).1 = store := by
  cases op with
  | increment key limit windowSeconds =>
    cases hassert : assertRateLimitArguments limit windowSeconds with
    | error e => rw [step_error hassert]
    | ok u =>
      rw [incremented_of_ok hassert] at h
      cases h
  | reset key => exact absurd (hforgets key) (by simp [RateLimitOp.forgets])
  | clear => exact absurd (hforgets "") (by simp [RateLimitOp.forgets])
  | cleanup locked => rfl

theorem step_incremented (h : incremented op = some key) :
    ∃ limit windowSeconds, op = .increment key limit windowSeconds ∧
      assertRateLimitArguments limit windowSeconds = .ok () := by
  cases op with
  | increment key limit windowSeconds =>
    cases hassert : assertRateLimitArguments limit windowSeconds with
    | error e =>
      rw [incremented_of_error hassert] at h
      cases h
    | ok u =>
      rw [incremented_of_ok hassert] at h
      exact ⟨limit, windowSeconds, by rw [Option.some.inj h], hassert⟩
  | reset key => cases h
  | clear => cases h
  | cleanup locked => cases h

theorem step_size (h : store.counters.length ≤ store.maxItems) :
    (memoryStep store now op).1.counters.length ≤ store.maxItems ∧
      (memoryStep store now op).1.maxItems = store.maxItems := by
  cases hop : incremented op with
  | none =>
    refine ⟨(step_quiet hop).length_le.trans h, ?_⟩
    cases op with
    | increment key limit windowSeconds =>
      cases hassert : assertRateLimitArguments limit windowSeconds with
      | error e => rw [step_error hassert]
      | ok u => rw [step_ok hassert h]
    | reset key => rfl
    | clear => rfl
    | cleanup locked => rfl
  | some key =>
    obtain ⟨limit, windowSeconds, rfl, hassert⟩ := step_incremented hop
    rw [step_ok hassert h]
    exact ⟨length_keepLast_le _ _, rfl⟩

theorem after_size (maxItems : ℕ) (ops : List TimedOp) :
    (after maxItems ops).counters.length ≤ maxItems ∧ (after maxItems ops).maxItems = maxItems := by
  induction ops using List.reverseRecOn with
  | nil => exact ⟨Nat.zero_le _, rfl⟩
  | append_singleton ops o ih =>
    obtain ⟨hlen, hmax⟩ := ih
    have hstep := @step_size (after maxItems ops) o.1 o.2 (by rw [hmax]; exact hlen)
    rw [hmax] at hstep
    rw [after_concat]
    exact hstep

theorem after_ok (h : incremented o.2 = some key) : ∃ limit windowSeconds, o.2 = .increment key limit windowSeconds ∧
    ∀ maxItems ops, (after maxItems (ops ++ [o])).counters = keepLast maxItems
      (((after maxItems ops).counters.filter fun c => decide (c.1 ≠ key)) ++
        [(key, (after maxItems ops).entryAfter o.1 key limit windowSeconds)]) := by
  obtain ⟨limit, windowSeconds, hop, hassert⟩ := step_incremented h
  refine ⟨limit, windowSeconds, hop, fun maxItems ops => ?_⟩
  obtain ⟨hlen, hmax⟩ := after_size maxItems ops
  rw [after_concat, hop, step_ok hassert (by rw [hmax]; exact hlen), hmax]

theorem after_length (maxItems : ℕ) (ops : List TimedOp) : (after maxItems ops).counters.length ≤ ops.length := by
  induction ops using List.reverseRecOn with
  | nil => exact Nat.le_refl 0
  | append_singleton ops o ih =>
    rw [List.length_append, List.length_singleton]
    cases hop : incremented o.2 with
    | none =>
      rw [after_concat]
      exact (step_quiet hop).length_le.trans (Nat.le_succ_of_le ih)
    | some key =>
      obtain ⟨limit, windowSeconds, -, hok⟩ := after_ok hop
      have hfilter := List.length_filter_le (fun c => decide (c.1 ≠ key)) (after maxItems ops).counters
      rw [hok]
      unfold keepLast
      rw [List.length_drop, List.length_append, List.length_singleton]
      omega

def ForgetsNothing (ops : List TimedOp) : Prop := ∀ o ∈ ops, ∀ key, o.2.forgets key = false

theorem ForgetsNothing.concat (h : ForgetsNothing (ops ++ [o])) :
    ForgetsNothing ops ∧ (incremented o.2 = none → ∀ maxItems ops, after maxItems (ops ++ [o]) = after maxItems ops) := by
  refine ⟨fun o' ho' => h o' (List.mem_append_left _ ho'), fun hop maxItems ops => ?_⟩
  rw [after_concat]
  exact step_idle hop (h o (by simp))

theorem after_keys (h : ForgetsNothing ops) (maxItems : ℕ) :
    (after maxItems ops).counters.map Prod.fst = keepLast maxItems (incrementedKeys ops).dedup := by
  induction ops using List.reverseRecOn with
  | nil => exact (@keepLast_of_le _ maxItems [] (Nat.zero_le _)).symm
  | append_singleton ops o ih =>
    obtain ⟨hops, hidle⟩ := h.concat
    have hkeys : incrementedKeys (ops ++ [o]) = incrementedKeys ops ++ (incremented o.2).toList := by
      unfold incrementedKeys
      rw [List.filterMap_append]
      cases hop : incremented o.2 <;> simp [hop]
    rw [hkeys]
    cases hop : incremented o.2 with
    | none =>
      rw [hidle hop, ih hops, Option.toList_none, List.append_nil]
    | some key =>
      obtain ⟨limit, windowSeconds, -, hok⟩ := after_ok hop
      have hfilter : ((after maxItems ops).counters.filter fun c => decide (c.1 ≠ key)).map Prod.fst =
          ((after maxItems ops).counters.map Prod.fst).filter fun k => decide (k ≠ key) := by
        rw [List.filter_map]
        rfl
      rw [hok, map_keepLast, List.map_append, hfilter, ih hops]
      exact keepLast_use maxItems (incrementedKeys ops) key

theorem lookup_of_held (h : ForgetsNothing ops) (hmem : (key, entry) ∈ (after maxItems ops).counters) :
    (after maxItems ops).counters.lookup key = some entry := by
  have hnodup : ((after maxItems ops).counters.map Prod.fst).Nodup := by
    rw [after_keys h]
    exact (List.nodup_dedup _).sublist (List.drop_sublist _ _)
  generalize (after maxItems ops).counters = counters at hmem hnodup
  induction counters with
  | nil => cases hmem
  | cons c counters ih =>
    obtain ⟨hnot, hrest⟩ := List.nodup_cons.mp hnodup
    rw [List.lookup_cons]
    rcases List.mem_cons.mp hmem with rfl | hmem
    · simp
    · have hne : (key == c.1) = false := by
        refine beq_eq_false_iff_ne.mpr fun hkey => hnot ?_
        exact List.mem_map.mpr ⟨(key, entry), hmem, hkey⟩
      rw [hne]
      exact ih hmem hrest

theorem LastInsertion.extend {before since : List TimedOp} {o' : TimedOp}
    (h : LastInsertion maxItems ops key before since o) (hheld : (after maxItems (ops ++ [o'])).Held key) :
    LastInsertion maxItems (ops ++ [o']) key before (since ++ [o']) o where
  eq := by rw [h.eq, List.append_assoc, List.cons_append]
  inserts := h.inserts
  not_held := h.not_held
  held := by
    intro part hpart
    rcases List.prefix_concat_iff.mp hpart with rfl | hpart
    · rw [h.eq, List.append_assoc, List.cons_append] at hheld
      exact hheld
    · exact h.held part hpart

/-- What a held key has counted is what a store with room for everything has counted since the insertion. -/
theorem after_entry (h : ForgetsNothing ops) (hmem : (key, entry) ∈ (after maxItems ops).counters) :
    ∃ before since o, LastInsertion maxItems ops key before since o ∧
      ∀ n, (o :: since).length ≤ n → (key, entry) ∈ (after n (o :: since)).counters := by
  induction ops using List.reverseRecOn generalizing entry with
  | nil => cases hmem
  | append_singleton ops o ih =>
    obtain ⟨hops, hidle⟩ := h.concat
    have hheld : (after maxItems (ops ++ [o])).Held key := List.mem_map.mpr ⟨(key, entry), hmem, rfl⟩
    cases hop : incremented o.2 with
    | none =>
      rw [hidle hop] at hmem
      obtain ⟨before, since, o', hlast, hfull⟩ := ih hops hmem
      refine ⟨before, since ++ [o], o', hlast.extend hheld, fun n hn => ?_⟩
      rw [← List.cons_append, List.length_append] at hn
      rw [← List.cons_append, hidle hop]
      exact hfull n (by omega)
    | some k =>
      obtain ⟨limit, windowSeconds, -, hok⟩ := after_ok hop
      -- with room for one more, nothing falls out
      have hroom : ∀ n l, (l ++ [o]).length ≤ n → (after n (l ++ [o])).counters =
          ((after n l).counters.filter fun c => decide (c.1 ≠ k)) ++
            [(k, (after n l).entryAfter o.1 k limit windowSeconds)] := by
        intro n l hn
        have hlen := after_length n l
        have hfilter := List.length_filter_le (fun c => decide (c.1 ≠ k)) (after n l).counters
        rw [List.length_append, List.length_singleton] at hn
        rw [hok, keepLast_of_le]
        rw [List.length_append, List.length_singleton]
        omega
      rw [hok] at hmem
      rcases List.mem_append.mp (List.mem_of_mem_drop hmem) with hold | hnew
      · -- another key
        obtain ⟨hold, hne⟩ := List.mem_filter.mp hold
        obtain ⟨before, since, o', hlast, hfull⟩ := ih hops hold
        refine ⟨before, since ++ [o], o', hlast.extend hheld, fun n hn => ?_⟩
        rw [← List.cons_append] at hn ⊢
        rw [hroom n _ hn]
        rw [List.length_append] at hn
        exact List.mem_append_left _ (List.mem_filter.mpr ⟨hfull n (by omega), hne⟩)
      · obtain ⟨rfl, hentry⟩ := Prod.mk.inj (List.mem_singleton.mp hnew)
        by_cases hwas : (after maxItems ops).Held key
        · obtain ⟨⟨_, entry'⟩, hmem', rfl⟩ := List.mem_map.mp hwas
          obtain ⟨before, since, o', hlast, hfull⟩ := ih hops hmem'
          refine ⟨before, since ++ [o], o', hlast.extend hheld, fun n hn => ?_⟩
          have hsince : ForgetsNothing (o' :: since) := fun x hx => hops x (hlast.eq ▸ List.mem_append_right _ hx)
          rw [← List.cons_append] at hn ⊢
          rw [hroom n _ hn]
          rw [List.length_append] at hn
          refine List.mem_append_right _ (List.mem_singleton.mpr (Prod.ext rfl ?_))
          rw [hentry]
          unfold entryAfter
          rw [lookup_of_held hops hmem', lookup_of_held hsince (hfull n (by omega))]
        · refine ⟨ops, [], o, ⟨rfl, hop, hwas, fun part hpart => ?_⟩, fun n hn => ?_⟩
          · rw [List.prefix_nil.mp hpart]
            exact hheld
          · have hfirst := hroom n [] hn
            rw [List.nil_append] at hfirst
            rw [hfirst, hentry]
            unfold entryAfter
            rw [lookup_none_iff.mpr hwas]
            exact List.mem_append_right _ (List.mem_singleton.mpr rfl)

/-- **The store in memory is a list of recency.** It never holds more keys than its size.  Without a reset or
a clear it holds the keys incremented last, each once and in that order, with the counters they have in a store
that evicts nothing and has seen what came since the key was inserted last. -/
theorem memory_store_recency (maxItems : ℕ) (ops : List TimedOp) :
    (after maxItems ops).counters.length ≤ maxItems ∧ (ForgetsNothing ops →
      (after maxItems ops).counters.map Prod.fst = keepLast maxItems (incrementedKeys ops).dedup ∧
      (after maxItems ops).counters.length = min maxItems (incrementedKeys ops).dedup.length ∧
      ∀ key entry, (key, entry) ∈ (after maxItems ops).counters → ∃ before since o,
        LastInsertion maxItems ops key before since o ∧
          ∀ n, (o :: since).length ≤ n → (key, entry) ∈ (after n (o :: since)).counters) := by
  refine ⟨(after_size maxItems ops).1, fun h => ⟨after_keys h maxItems, ?_, fun _ _ => after_entry h⟩⟩
  have hlen := congrArg List.length (after_keys h maxItems)
  unfold keepLast at hlen
  rw [List.length_map, List.length_drop] at hlen
  omega

theorem memory_store_recency_three_keys :
    (after 2 [(0, .increment "a" 5 1), (1, .increment "b" 5 1), (2, .increment "a" 5 1),
      (3, .increment "c" 5 1)]).counters.map Prod.fst = ["a", "c"] := by
  have hkeys := (memory_store_recency 2 [(0, .increment "a" 5 1), (1, .increment "b" 5 1), (2, .increment "a" 5 1),
    (3, .increment "c" 5 1)]).2 (by unfold ForgetsNothing; simp [RateLimitOp.forgets])
  rw [hkeys.1]
  decide

/-- A third key pushes out the one used least recently, whose counter begins anew when it comes back. -/
example : ((after 2 [(0, .increment "a" 5 1), (1, .increment "b" 5 1), (2, .increment "a" 5 1), (3, .increment "c" 5 1),
    (4, .increment "b" 5 1)]).counters.map fun c => (c.1, c.2.count)) = [("c", 1), ("b", 1)] := by decide

end TeamInbox.Api.MemoryRateLimitStore
