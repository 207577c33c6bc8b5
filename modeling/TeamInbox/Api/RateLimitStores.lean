import TeamInbox.Api.RedisRateLimit
import TeamInbox.Lib.FixedWindow
import TeamInbox.Lib.Table
import Mathlib.Data.List.Sort

/-!
# TeamInbox.Api.RateLimitStores — the stores in memory and in PostgreSQL

The store in memory keeps the start of a window in a map of least recent use, the one in PostgreSQL the end
of the window in a row; a cleanup deletes rows that have expired.  Both count in the fixed windows of
`Lib.FixedWindow`, so they answer alike as long as the map evicts nothing (`rate_limit_stores_agree`).
-/

namespace TeamInbox.Api

open TeamInbox.Lib

/-- The errors of `assertRateLimitArguments`. -/
inductive RangeError
  | limit
  | window
  deriving DecidableEq

def assertRateLimitArguments (limit windowSeconds : ℕ) : Except RangeError Unit :=
  if limit = 0 ∨ maxRateLimitRequests < limit then .error .limit
  else if windowSeconds = 0 ∨ maxRateLimitWindowSeconds < windowSeconds then .error .window
  else .ok ()

/-! ### In memory -/

structure CounterEntry where
  count : ℕ
  windowStart : ℕ
  deriving DecidableEq

/-- The map lists its keys in the order of insertion. -/
structure MemoryRateLimitStore where
  counters : List (String × CounterEntry)
  maxItems : ℕ
  deriving DecidableEq

namespace MemoryRateLimitStore

def empty (maxItems : ℕ) : MemoryRateLimitStore := ⟨[], maxItems⟩

/-- The first keys are those used least recently. -/
def evictIfNeeded (store : MemoryRateLimitStore) : MemoryRateLimitStore :=
  { store with counters := store.counters.drop (store.counters.length - store.maxItems) }

def answer (entry : CounterEntry) (now limit windowMs : ℕ) : RateLimitResult where
  allowed := decide (entry.count ≤ limit)
  currentCount := entry.count
  limit := limit
  resetAt := (entry.windowStart + windowMs) / 1000
  retryAfter := (entry.windowStart + windowMs - now + 999) / 1000

def nextEntry (entry : CounterEntry) (now limit windowMs : ℕ) : CounterEntry :=
  if windowMs ≤ now - entry.windowStart then ⟨1, now⟩ else { entry with count := min (entry.count + 1) (limit + 1) }

def increment (store : MemoryRateLimitStore) (now : ℕ) (key : String) (limit windowSeconds : ℕ) :
    Except RangeError (MemoryRateLimitStore × RateLimitResult) := do
  assertRateLimitArguments limit windowSeconds
  let windowMs := windowSeconds * 1000
  match store.counters.lookup key with
  | none =>
    let inserted : MemoryRateLimitStore := { store with counters := store.counters ++ [(key, ⟨1, now⟩)] }
    pure (inserted.evictIfNeeded, answer ⟨1, now⟩ now limit windowMs)
  | some entry =>
    let next := nextEntry entry now limit windowMs
    -- inserted again, so that the key is the one used most recently
    let counters := (store.counters.filter fun c => decide (c.1 ≠ key)) ++ [(key, next)]
    pure ({ store with counters := counters }, answer next now limit windowMs)

def reset (store : MemoryRateLimitStore) (key : String) : MemoryRateLimitStore :=
  { store with counters := store.counters.filter fun c => decide (c.1 ≠ key) }

def clear (store : MemoryRateLimitStore) : MemoryRateLimitStore := { store with counters := [] }

end MemoryRateLimitStore

/-! ### In PostgreSQL -/

/-- A row of `api_rate_limit_buckets`; instants in milliseconds. -/
structure RateLimitBucket where
  requestCount : ℕ
  windowStartedAt : ℕ
  expiresAt : ℕ
  deriving DecidableEq

structure PostgresRateLimitStore where
  buckets : Table String RateLimitBucket
  cleanupBatchSize : ℕ

namespace PostgresRateLimitStore

def empty (cleanupBatchSize : ℕ) : PostgresRateLimitStore := ⟨.empty, cleanupBatchSize⟩

/-- `ON CONFLICT (bucket_key) DO UPDATE SET …` -/
def updateBucket (row : RateLimitBucket) (now cappedCount windowSeconds : ℕ) : RateLimitBucket where
  requestCount := if row.expiresAt ≤ now then 1
    else if cappedCount ≤ row.requestCount then cappedCount else row.requestCount + 1
  windowStartedAt := if row.expiresAt ≤ now then now else row.windowStartedAt
  expiresAt := if row.expiresAt ≤ now then now + windowSeconds * 1000 else row.expiresAt

def nextBucket (row : Option RateLimitBucket) (now limit windowSeconds : ℕ) : RateLimitBucket :=
  match row with
  | none => ⟨1, now, now + windowSeconds * 1000⟩
  | some row => updateBucket row now (limit + 1) windowSeconds

def answer (row : RateLimitBucket) (now limit : ℕ) : RateLimitResult where
  allowed := decide (row.requestCount ≤ limit)
  currentCount := row.requestCount
  limit := limit
  resetAt := (row.expiresAt + 999) / 1000
  retryAfter := (row.expiresAt - now + 999) / 1000

def increment (store : PostgresRateLimitStore) (now : ℕ) (key : String) (limit windowSeconds : ℕ) :
    Except RangeError (PostgresRateLimitStore × RateLimitResult) := do
  assertRateLimitArguments limit windowSeconds
  let row := nextBucket (store.buckets.find? key) now limit windowSeconds
  pure ({ store with buckets := store.buckets.put key row }, answer row now limit)

def reset (store : PostgresRateLimitStore) (key : String) : PostgresRateLimitStore :=
  { store with buckets := store.buckets.erase key }

def clear (store : PostgresRateLimitStore) : PostgresRateLimitStore := { store with buckets := .empty }

/-- The keys of a batch: expired, not locked, those that expired first. -/
def expiredKeys (store : PostgresRateLimitStore) (now : ℕ) (locked : List String) : List String :=
  let expired := store.buckets.entries.filter fun e => decide (e.2.expiresAt ≤ now) && decide (e.1 ∉ locked)
  ((expired.insertionSort fun e f => e.2.expiresAt ≤ f.2.expiresAt).take store.cleanupBatchSize).map (·.1)

def cleanupExpiredBuckets (store : PostgresRateLimitStore) (now : ℕ) (locked : List String) : PostgresRateLimitStore :=
  { store with buckets := (store.expiredKeys now locked).foldl Table.erase store.buckets }

end PostgresRateLimitStore

/-! ### Operations -/

inductive RateLimitOp
  | increment (key : String) (limit windowSeconds : ℕ)
  | reset (key : String)
  | clear
  /-- the timer of the store in PostgreSQL; rows that others lock are skipped -/
  | cleanup (locked : List String)
  deriving DecidableEq

/-- What an increment answers: `allowed` and `currentCount`, or the error it throws. -/
abbrev SeenAnswer := Option (Except RangeError (Bool × ℕ))

def seen (result : RateLimitResult) : SeenAnswer := some (.ok (result.allowed, result.currentCount))

def memoryStep (store : MemoryRateLimitStore) (now : ℕ) : RateLimitOp → MemoryRateLimitStore × SeenAnswer
  | .increment key limit windowSeconds =>
    match store.increment now key limit windowSeconds with
    | .error e => (store, some (.error e))
    | .ok (store', result) => (store', seen result)
  | .reset key => (store.reset key, none)
  | .clear => (store.clear, none)
  | .cleanup _ => (store, none)

def postgresStep (store : PostgresRateLimitStore) (now : ℕ) : RateLimitOp → PostgresRateLimitStore × SeenAnswer
  | .increment key limit windowSeconds =>
    match store.increment now key limit windowSeconds with
    | .error e => (store, some (.error e))
    | .ok (store', result) => (store', seen result)
  | .reset key => (store.reset key, none)
  | .clear => (store.clear, none)
  | .cleanup locked => (store.cleanupExpiredBuckets now locked, none)

/-! ### What is claimed -/

structure KeyLimit where
  limit : ℕ
  windowSeconds : ℕ
  deriving DecidableEq

/-- Increments of a key come with its limit and window. -/
def KeepsLimits (limits : String → KeyLimit) : RateLimitOp → Prop
  | .increment key limit windowSeconds => limits key = ⟨limit, windowSeconds⟩
  | _ => True

def NoEviction (store : MemoryRateLimitStore) (_now : ℕ) : RateLimitOp → Prop
  | .increment key _ _ => store.counters.lookup key = none → store.counters.length < store.maxItems
  | _ => True

abbrev RateLimitTrace := List (Answered RateLimitOp SeenAnswer)

/-- An allowed increment of the key before an instant. -/
def allowedBefore (key : String) (stop : ℕ) (e : Answered RateLimitOp SeenAnswer) : Bool :=
  match e.op, e.result with
  | .increment key' _ _, some (.ok (allowed, _)) => decide (key' = key) && decide (e.now < stop) && allowed
  | _, _ => false

def RateLimitOp.forgets (key : String) : RateLimitOp → Bool
  | .reset key' => decide (key' = key)
  | .clear => true
  | _ => false

/-- In the window that an increment opens, which is answered with a count of one, at most `limit` are allowed. -/
def AtMostLimit (trace : RateLimitTrace) : Prop :=
  ∀ before e rest key limit windowSeconds allowed, trace = before ++ e :: rest →
    e.op = .increment key limit windowSeconds → e.result = some (.ok (allowed, 1)) →
    (e :: rest).countP (allowedBefore key (e.now + windowSeconds * 1000)) ≤ limit

/-- The same, until the key is reset or all keys are cleared. -/
def AtMostLimitUntilReset (trace : RateLimitTrace) : Prop :=
  ∀ before e rest key limit windowSeconds allowed, trace = before ++ e :: rest →
    e.op = .increment key limit windowSeconds → e.result = some (.ok (allowed, 1)) →
    ((e :: rest).takeWhile fun e => !e.op.forgets key).countP (allowedBefore key (e.now + windowSeconds * 1000)) ≤ limit

/-! ### The stores as fixed windows -/

section Windows

def quotaOf (limits : String → KeyLimit) (key : String) : Quota := ⟨(limits key).limit, (limits key).windowSeconds * 1000⟩

/-- An increment with arguments out of range does nothing, and neither does a cleanup. -/
def windowOp : RateLimitOp → WindowOp String
  | .increment key limit windowSeconds =>
    match assertRateLimitArguments limit windowSeconds with
    | .ok _ => .hit key
    | .error _ => .pass
  | .reset key => .drop key
  | .clear => .dropAll
  | .cleanup _ => .pass

/-- What is answered when the window counts so many. -/
def answerOf (op : RateLimitOp) (count : Option ℕ) : SeenAnswer :=
  match op with
  | .increment _ limit windowSeconds =>
    match assertRateLimitArguments limit windowSeconds with
    | .ok _ => count.map fun c => .ok (decide (c ≤ limit), c)
    | .error e => some (.error e)
  | _ => none

def CounterEntry.window (entry : CounterEntry) : Window := ⟨entry.count, entry.windowStart⟩

def RateLimitBucket.window (row : RateLimitBucket) : Window := ⟨row.requestCount, row.windowStartedAt⟩

def MemoryRateLimitStore.cells (store : MemoryRateLimitStore) (key : String) : Option Window :=
  (store.counters.lookup key).map (·.window)

def PostgresRateLimitStore.cells (store : PostgresRateLimitStore) (key : String) : Option Window :=
  (store.buckets.find? key).map (·.window)

variable {limits : String → KeyLimit} {limit windowSeconds now : ℕ}

theorem assert_ok_iff : assertRateLimitArguments limit windowSeconds = .ok () ↔
    (0 < limit ∧ limit ≤ maxRateLimitRequests) ∧ 0 < windowSeconds ∧ windowSeconds ≤ maxRateLimitWindowSeconds := by
  unfold assertRateLimitArguments
  split_ifs with hlimit hwindow
  · exact ⟨fun h => (by cases h), fun h => (by omega)⟩
  · exact ⟨fun h => (by cases h), fun h => (by omega)⟩
  · exact ⟨fun _ => by omega, fun _ => rfl⟩

theorem windowStep_increment (cells : String → Option Window) (key : String) (limit windowSeconds : ℕ) :
    windowStep (quotaOf limits) windowOp cells now (.increment key limit windowSeconds) =
      match assertRateLimitArguments limit windowSeconds with
      | .ok _ => (Function.update cells key (some ((quotaOf limits key).hit now (cells key))),
          some ((quotaOf limits key).hit now (cells key)).count)
      | .error _ => (cells, none) := by
  unfold windowStep windowOp
  dsimp only
  cases assertRateLimitArguments limit windowSeconds <;> rfl

/-- A store whose answer and next cells are those of the counter. -/
def StepsAs (limits : String → KeyLimit) (now : ℕ) (op : RateLimitOp) (cells : String → Option Window)
    (answer : SeenAnswer) (next : String → Option Window) : Prop :=
  answer = answerOf op (windowStep (quotaOf limits) windowOp cells now op).2 ∧
    next = (windowStep (quotaOf limits) windowOp cells now op).1

theorem stepsAs_error {cells : String → Option Window} {key : String} {e : RangeError}
    (h : assertRateLimitArguments limit windowSeconds = .error e) :
    StepsAs limits now (.increment key limit windowSeconds) cells (some (.error e)) cells := by
  unfold StepsAs answerOf
  rw [windowStep_increment, h]
  dsimp only
  exact ⟨by rw [h], rfl⟩

theorem stepsAs_ok {cells next : String → Option Window} {key : String} {w : Window} {result : RateLimitResult}
    (h : assertRateLimitArguments limit windowSeconds = .ok ())
    (hw : (quotaOf limits key).hit now (cells key) = w) (hresult : seen result = some (.ok (decide (w.count ≤ limit), w.count)))
    (hnext : next = Function.update cells key (some w)) :
    StepsAs limits now (.increment key limit windowSeconds) cells (seen result) next := by
  unfold StepsAs answerOf
  rw [windowStep_increment, h, hw]
  dsimp only
  exact ⟨by rw [h, hresult]; rfl, hnext⟩

/-! #### In memory -/

theorem lookup_filter_ne {β : Type} (l : List (String × β)) (key key' : String) :
    (l.filter fun c => decide (c.1 ≠ key)).lookup key' = if key' = key then none else l.lookup key' := by
  induction l with
  | nil => split <;> rfl
  | cons c l ih =>
    obtain ⟨k, v⟩ := c
    by_cases hk : k = key
    · subst hk
      rw [List.filter_cons_of_neg (by simp), ih, List.lookup_cons]
      by_cases h : key' = k
      · rw [if_pos h, if_pos h]
      · have hne : (key' == k) = false := beq_eq_false_iff_ne.mpr h
        rw [if_neg h, if_neg h, hne]
    · rw [List.filter_cons_of_pos (by simpa using hk), List.lookup_cons, List.lookup_cons, ih]
      by_cases h : key' = key
      · subst h
        have hne : (key' == k) = false := beq_eq_false_iff_ne.mpr (Ne.symm hk)
        rw [if_pos rfl, if_pos rfl, hne]
      · rw [if_neg h, if_neg h]

theorem lookup_append_single {β : Type} (l : List (String × β)) (key key' : String) (v : β) :
    (l ++ [(key, v)]).lookup key' = (l.lookup key').or (if key' = key then some v else none) := by
  rw [List.lookup_append, List.lookup_cons]
  by_cases h : key' = key
  · subst h
    simp
  · have hne : (key' == key) = false := beq_eq_false_iff_ne.mpr h
    rw [hne, if_neg h]
    rfl

namespace MemoryRateLimitStore

theorem nextEntry_window (entry : CounterEntry) (key : String) (hlimits : limits key = ⟨limit, windowSeconds⟩)
    (hwindow : 0 < windowSeconds) : (quotaOf limits key).hit now (some entry.window) =
      (nextEntry entry now limit (windowSeconds * 1000)).window := by
  unfold nextEntry
  cases hlive : (quotaOf limits key).isLive now entry.window with
  | true =>
    rw [Quota.hit_live hlive]
    unfold Quota.isLive quotaOf CounterEntry.window at hlive
    rw [hlimits, decide_eq_true_eq] at hlive
    rw [if_neg (by dsimp only at hlive; omega)]
    unfold quotaOf CounterEntry.window
    rw [hlimits]
  | false =>
    rw [Quota.hit_ended hlive]
    unfold Quota.isLive quotaOf CounterEntry.window at hlive
    rw [hlimits, decide_eq_false_iff_not] at hlive
    rw [if_pos (by dsimp only at hlive; omega)]
    rfl

variable {store : MemoryRateLimitStore} {key : String}

theorem cells_put (entry : CounterEntry) (h : store.counters.lookup key = none) :
    cells { store with counters := store.counters ++ [(key, entry)] } =
      Function.update store.cells key (some entry.window) := by
  funext key'
  unfold cells
  dsimp only
  rw [lookup_append_single]
  by_cases hk : key' = key
  · subst hk
    rw [h, if_pos rfl, Function.update_self]
    rfl
  · rw [if_neg hk, Option.or_none, Function.update_of_ne hk]

theorem cells_erase (store : MemoryRateLimitStore) (key : String) :
    (store.reset key).cells = Function.update store.cells key none := by
  funext key'
  unfold cells reset
  dsimp only
  rw [lookup_filter_ne]
  by_cases hk : key' = key
  · subst hk
    rw [if_pos rfl, Function.update_self]
    rfl
  · rw [if_neg hk, Function.update_of_ne hk]

theorem cells_reinsert (store : MemoryRateLimitStore) (key : String) (entry : CounterEntry) :
    cells { store with counters := (store.counters.filter fun c => decide (c.1 ≠ key)) ++ [(key, entry)] } =
      Function.update store.cells key (some entry.window) := by
  have hnone : (store.reset key).counters.lookup key = none := by
    unfold reset
    rw [lookup_filter_ne, if_pos rfl]
  have hput := cells_put entry hnone
  rw [cells_erase, Function.update_idem] at hput
  exact hput

theorem evict_none (h : store.counters.length ≤ store.maxItems) : store.evictIfNeeded = store := by
  unfold evictIfNeeded
  rw [Nat.sub_eq_zero_of_le h, List.drop_zero]

theorem step_error {e : RangeError} (h : assertRateLimitArguments limit windowSeconds = .error e) :
    memoryStep store now (.increment key limit windowSeconds) = (store, some (.error e)) := by
  unfold memoryStep increment
  dsimp only
  rw [h]
  rfl

theorem step_none (h : assertRateLimitArguments limit windowSeconds = .ok ())
    (hentry : store.counters.lookup key = none) :
    memoryStep store now (.increment key limit windowSeconds) =
      (evictIfNeeded { store with counters := store.counters ++ [(key, ⟨1, now⟩)] },
        seen (answer ⟨1, now⟩ now limit (windowSeconds * 1000))) := by
  unfold memoryStep increment
  dsimp only
  rw [h, hentry]
  rfl

theorem step_some {entry : CounterEntry} (h : assertRateLimitArguments limit windowSeconds = .ok ())
    (hentry : store.counters.lookup key = some entry) :
    memoryStep store now (.increment key limit windowSeconds) =
      ({ store with counters := (store.counters.filter fun c => decide (c.1 ≠ key)) ++
          [(key, nextEntry entry now limit (windowSeconds * 1000))] },
        seen (answer (nextEntry entry now limit (windowSeconds * 1000)) now limit (windowSeconds * 1000))) := by
  unfold memoryStep increment
  dsimp only
  rw [h, hentry]
  rfl

theorem step_windows {op : RateLimitOp} (hop : KeepsLimits limits op) (hquiet : NoEviction store now op) :
    StepsAs limits now op store.cells (memoryStep store now op).2 (memoryStep store now op).1.cells := by
  cases op with
  | increment key limit windowSeconds =>
    cases hassert : assertRateLimitArguments limit windowSeconds with
    | error e =>
      rw [step_error hassert]
      exact stepsAs_error hassert
    | ok u =>
      cases hentry : store.counters.lookup key with
      | none =>
        have hcell : store.cells key = none := by
          unfold cells
          rw [hentry]
          rfl
        have hlen : (store.counters ++ [(key, (⟨1, now⟩ : CounterEntry))]).length ≤ store.maxItems := by
          rw [List.length_append, List.length_singleton]
          exact hquiet hentry
        have hhit : (quotaOf limits key).hit now (store.cells key) = ⟨1, now⟩ := by rw [hcell, Quota.hit_none]
        rw [step_none hassert hentry, evict_none hlen]
        exact stepsAs_ok hassert hhit rfl (cells_put ⟨1, now⟩ hentry)
      | some entry =>
        have hcell : store.cells key = some entry.window := by
          unfold cells
          rw [hentry]
          rfl
        have hvalid := (assert_ok_iff.mp hassert).2.1
        have hhit : (quotaOf limits key).hit now (store.cells key) =
            (nextEntry entry now limit (windowSeconds * 1000)).window := by
          rw [hcell, nextEntry_window entry key hop hvalid]
        rw [step_some hassert hentry]
        exact stepsAs_ok hassert hhit rfl (cells_reinsert store key _)
  | reset key => exact ⟨rfl, cells_erase store key⟩
  | clear => exact ⟨rfl, rfl⟩
  | cleanup locked => exact ⟨rfl, rfl⟩

end MemoryRateLimitStore

/-! #### In PostgreSQL -/

namespace PostgresRateLimitStore

def Ends (limits : String → KeyLimit) (store : PostgresRateLimitStore) : Prop :=
  ∀ key row, store.buckets.find? key = some row → row.expiresAt = row.windowStartedAt + (quotaOf limits key).length

variable {store : PostgresRateLimitStore} {key : String}

theorem expired_iff {row : RateLimitBucket} (h : row.expiresAt = row.windowStartedAt + (quotaOf limits key).length) :
    row.expiresAt ≤ now ↔ (quotaOf limits key).isLive now row.window = false := by
  unfold Quota.isLive RateLimitBucket.window
  rw [decide_eq_false_iff_not, h]
  exact not_lt.symm

theorem updateBucket_expired {row : RateLimitBucket} (h : row.expiresAt ≤ now) (cappedCount windowSeconds : ℕ) :
    updateBucket row now cappedCount windowSeconds = ⟨1, now, now + windowSeconds * 1000⟩ := by
  unfold updateBucket
  rw [if_pos h, if_pos h, if_pos h]

theorem updateBucket_live {row : RateLimitBucket} (h : ¬row.expiresAt ≤ now) (limit windowSeconds : ℕ) :
    updateBucket row now (limit + 1) windowSeconds =
      ⟨min (row.requestCount + 1) (limit + 1), row.windowStartedAt, row.expiresAt⟩ := by
  have hcount : (if limit + 1 ≤ row.requestCount then limit + 1 else row.requestCount + 1) =
      min (row.requestCount + 1) (limit + 1) := by
    split <;> omega
  unfold updateBucket
  rw [if_neg h, if_neg h, if_neg h, hcount]

theorem nextBucket_window (hends : Ends limits store) (hlimits : limits key = ⟨limit, windowSeconds⟩) :
    (quotaOf limits key).hit now (store.cells key) =
        (nextBucket (store.buckets.find? key) now limit windowSeconds).window ∧
      (nextBucket (store.buckets.find? key) now limit windowSeconds).expiresAt =
        (nextBucket (store.buckets.find? key) now limit windowSeconds).windowStartedAt + (quotaOf limits key).length := by
  have hquota : quotaOf limits key = ⟨limit, windowSeconds * 1000⟩ := by
    unfold quotaOf
    rw [hlimits]
  unfold cells
  cases hrow : store.buckets.find? key with
  | none => exact ⟨rfl, by rw [hquota]; rfl⟩
  | some row =>
    have hend := hends key row hrow
    unfold nextBucket
    dsimp only
    rw [Option.map_some]
    by_cases hexpired : row.expiresAt ≤ now
    · rw [updateBucket_expired hexpired, Quota.hit_ended ((expired_iff hend).mp hexpired), hquota]
      exact ⟨rfl, rfl⟩
    · have hlive : (quotaOf limits key).isLive now row.window = true := by
        rw [← Bool.not_eq_false]
        exact fun h => hexpired ((expired_iff hend).mpr h)
      rw [updateBucket_live hexpired, Quota.hit_live hlive, hquota]
      exact ⟨rfl, by rw [hend, hquota]⟩

theorem cells_put (store : PostgresRateLimitStore) (key : String) (row : RateLimitBucket) :
    cells { store with buckets := store.buckets.put key row } = Function.update store.cells key (some row.window) := by
  funext key'
  unfold cells
  dsimp only
  rw [Table.find?_put]
  by_cases hk : key' = key
  · subst hk
    rw [if_pos rfl, Function.update_self]
    rfl
  · rw [if_neg hk, Function.update_of_ne hk]

theorem cells_erase (store : PostgresRateLimitStore) (key : String) :
    (store.reset key).cells = Function.update store.cells key none := by
  funext key'
  unfold cells reset
  dsimp only
  rw [Table.find?_erase]
  by_cases hk : key' = key
  · subst hk
    rw [if_pos rfl, Function.update_self]
    rfl
  · rw [if_neg hk, Function.update_of_ne hk]

theorem cleanup_forgets (hends : Ends limits store) (locked : List String) (key : String) :
    (store.cleanupExpiredBuckets now locked).cells key = store.cells key ∨
      (store.cleanupExpiredBuckets now locked).cells key = none ∧
        ∀ w, store.cells key = some w → (quotaOf limits key).isLive now w = false := by
  unfold cells cleanupExpiredBuckets
  dsimp only
  rw [Table.find?_foldl_erase]
  by_cases hmem : key ∈ store.expiredKeys now locked
  · rw [if_pos hmem]
    refine Or.inr ⟨rfl, fun w hw => ?_⟩
    obtain ⟨⟨key', row⟩, hentry, rfl⟩ := List.mem_map.mp hmem
    have hin := List.mem_of_mem_take hentry
    rw [List.mem_insertionSort, List.mem_filter, Bool.and_eq_true, decide_eq_true_eq, Table.mem_entries] at hin
    obtain ⟨hrow, hexpired, -⟩ := hin
    rw [hrow] at hw
    rw [← Option.some.inj hw]
    exact (expired_iff (hends key' row hrow)).mp hexpired
  · rw [if_neg hmem]
    exact Or.inl rfl

theorem ends_of_erased {buckets : Table String RateLimitBucket} (hends : Ends limits store)
    (hsub : ∀ key row, buckets.find? key = some row → store.buckets.find? key = some row) :
    Ends limits { store with buckets := buckets } :=
  fun key row h => hends key row (hsub key row h)

theorem step_error {e : RangeError} (h : assertRateLimitArguments limit windowSeconds = .error e) :
    postgresStep store now (.increment key limit windowSeconds) = (store, some (.error e)) := by
  unfold postgresStep increment
  dsimp only
  rw [h]
  rfl

theorem step_ok (h : assertRateLimitArguments limit windowSeconds = .ok ()) :
    postgresStep store now (.increment key limit windowSeconds) =
      ({ store with buckets := store.buckets.put key (nextBucket (store.buckets.find? key) now limit windowSeconds) },
        seen (answer (nextBucket (store.buckets.find? key) now limit windowSeconds) now limit)) := by
  unfold postgresStep increment
  dsimp only
  rw [h]
  rfl

theorem step_windows {op : RateLimitOp} (hends : Ends limits store) (hop : KeepsLimits limits op)
    {cells' : String → Option Window} (hagree : AgreeAt (quotaOf limits) now cells' store.cells) :
    (postgresStep store now op).2 = answerOf op (windowStep (quotaOf limits) windowOp cells' now op).2 ∧
      AgreeAt (quotaOf limits) now (windowStep (quotaOf limits) windowOp cells' now op).1
        (postgresStep store now op).1.cells ∧ Ends limits (postgresStep store now op).1 := by
  have hsame : ∀ answer next, StepsAs limits now op store.cells answer next →
      answer = answerOf op (windowStep (quotaOf limits) windowOp cells' now op).2 ∧
        AgreeAt (quotaOf limits) now (windowStep (quotaOf limits) windowOp cells' now op).1 next := by
    rintro answer next ⟨rfl, rfl⟩
    obtain ⟨hcount, hnext⟩ := hagree.step op
    exact ⟨congrArg (answerOf op) hcount.symm, hnext⟩
  cases op with
  | increment key limit windowSeconds =>
    cases hassert : assertRateLimitArguments limit windowSeconds with
    | error e =>
      rw [step_error hassert]
      obtain ⟨hanswer, hnext⟩ := hsame _ _ (stepsAs_error hassert)
      exact ⟨hanswer, hnext, hends⟩
    | ok u =>
      obtain ⟨hwindow, hend⟩ : (quotaOf limits key).hit now (store.cells key) =
            (nextBucket (store.buckets.find? key) now limit windowSeconds).window ∧ _ := nextBucket_window hends hop
      have hsteps : StepsAs limits now (.increment key limit windowSeconds) store.cells
          (seen (answer (nextBucket (store.buckets.find? key) now limit windowSeconds) now limit)) _ :=
        stepsAs_ok hassert hwindow rfl (cells_put store key _)
      obtain ⟨hanswer, hnext⟩ := hsame _ _ hsteps
      rw [step_ok hassert]
      refine ⟨hanswer, hnext, fun key' row hrow => ?_⟩
      dsimp only at hrow
      rw [Table.find?_put] at hrow
      by_cases hk : key' = key
      · subst hk
        rw [if_pos rfl] at hrow
        rw [← Option.some.inj hrow]
        exact hend
      · rw [if_neg hk] at hrow
        exact hends key' row hrow
  | reset key =>
    obtain ⟨hanswer, hnext⟩ := hsame none (store.reset key).cells ⟨rfl, cells_erase store key⟩
    refine ⟨hanswer, hnext, ends_of_erased hends fun key' row h => ?_⟩
    rw [Table.find?_erase] at h
    split_ifs at h
    exact h
  | clear =>
    obtain ⟨hanswer, hnext⟩ := hsame none store.clear.cells ⟨rfl, rfl⟩
    exact ⟨hanswer, hnext, fun key' row h => (by cases h)⟩
  | cleanup locked =>
    refine ⟨rfl, hagree.forget (cleanup_forgets hends locked), ends_of_erased hends fun key' row h => ?_⟩
    rw [Table.find?_foldl_erase] at h
    split_ifs at h
    exact h

end PostgresRateLimitStore

/-! ### Traces -/

/-- The answers of a store that counts like the windows. -/
def answersOf (trace : List (Answered RateLimitOp (Option ℕ))) : RateLimitTrace :=
  trace.map fun e => ⟨e.now, e.op, answerOf e.op e.result⟩

section Traces

variable {ops : List (ℕ × RateLimitOp)}

theorem memory_trace (maxItems : ℕ) (hmono : ops.Pairwise fun p q => p.1 ≤ q.1)
    (hlimits : ∀ p ∈ ops, KeepsLimits limits p.2) (hquiet : Along memoryStep NoEviction (.empty maxItems) ops) :
    traceOf memoryStep (.empty maxItems) ops =
      answersOf (traceOf (windowStep (quotaOf limits) windowOp) (fun _ => none) ops) := by
  refine traceOf_simulates (R := fun _ store cells => store.cells = cells) ?_ ?_ hmono rfl (fun _ _ => Nat.zero_le _)
    (hquiet.and hlimits)
  · exact fun now now' store cells _ h => h
  · rintro now op store cells rfl ⟨hop, hroom⟩
    exact MemoryRateLimitStore.step_windows hop hroom

theorem postgres_trace (cleanupBatchSize : ℕ) (hmono : ops.Pairwise fun p q => p.1 ≤ q.1)
    (hlimits : ∀ p ∈ ops, KeepsLimits limits p.2) :
    traceOf postgresStep (.empty cleanupBatchSize) ops =
      answersOf (traceOf (windowStep (quotaOf limits) windowOp) (fun _ => none) ops) := by
  refine traceOf_simulates (R := fun now store cells => AgreeAt (quotaOf limits) now cells store.cells ∧
    PostgresRateLimitStore.Ends limits store) ?_ ?_ hmono ⟨fun _ => rfl, ?_⟩ (fun _ _ => Nat.zero_le _)
    ((along_true ops _).and hlimits)
  · rintro now now' store cells hle ⟨hagree, hends⟩
    exact ⟨hagree.later hle, hends⟩
  · rintro now op store cells ⟨hagree, hends⟩ ⟨hop, -⟩
    exact PostgresRateLimitStore.step_windows hends hop hagree
  · intro key row h
    cases h

theorem drops_windowOp (key : String) (op : RateLimitOp) : (windowOp op).drops key = op.forgets key := by
  cases op with
  | increment key' limit windowSeconds =>
    unfold windowOp
    dsimp only
    cases assertRateLimitArguments limit windowSeconds <;> rfl
  | reset key' => rfl
  | clear => rfl
  | cleanup locked => rfl

theorem admits_of_allowed {key : String} {stop : ℕ} {e : Answered RateLimitOp (Option ℕ)}
    (hop : KeepsLimits limits e.op) (h : allowedBefore key stop ⟨e.now, e.op, answerOf e.op e.result⟩ = true) :
    admitsBefore (quotaOf limits) windowOp key stop e = true := by
  obtain ⟨now, op, result⟩ := e
  cases op with
  | increment key' limit windowSeconds =>
    unfold admitsBefore windowOp
    unfold allowedBefore answerOf at h
    dsimp only at h ⊢
    cases hassert : assertRateLimitArguments limit windowSeconds with
    | error e =>
      rw [hassert] at h
      cases h
    | ok u =>
      rw [hassert] at h
      cases result with
      | none => cases h
      | some c =>
        simp only [Option.map_some, Bool.and_eq_true, decide_eq_true_eq] at h
        obtain ⟨⟨rfl, hnow⟩, hle⟩ := h
        have hlimit : (quotaOf limits key').limit = limit := congrArg KeyLimit.limit hop
        simp only [Option.any_some, hlimit, hnow, hle, decide_true, Bool.and_self]
  | reset key' => cases h
  | clear => cases h
  | cleanup locked => cases h

theorem opened_of_one {op : RateLimitOp} {key : String} {limit windowSeconds : ℕ} {count : Option ℕ} {allowed : Bool}
    (hop : op = .increment key limit windowSeconds) (h : answerOf op count = some (.ok (allowed, 1))) :
    assertRateLimitArguments limit windowSeconds = .ok () ∧ count = some 1 := by
  subst hop
  unfold answerOf at h
  dsimp only at h
  cases hassert : assertRateLimitArguments limit windowSeconds with
  | error e =>
    rw [hassert] at h
    cases h
  | ok u =>
    rw [hassert] at h
    cases count with
    | none => cases h
    | some c =>
      simp only [Option.map_some, Option.some.injEq, Except.ok.injEq, Prod.mk.injEq] at h
      exact ⟨rfl, congrArg some h.2⟩

theorem atMostLimit_windows (hmono : ops.Pairwise fun p q => p.1 ≤ q.1) (hlimits : ∀ p ∈ ops, KeepsLimits limits p.2) :
    AtMostLimitUntilReset (answersOf (traceOf (windowStep (quotaOf limits) windowOp) (fun _ => none) ops)) := by
  intro before e rest key limit windowSeconds allowed htrace hop hresult
  obtain ⟨before', later, hsplit, rfl, hlater⟩ := List.map_eq_append_iff.mp htrace
  obtain ⟨e', rest', rfl, rfl, rfl⟩ := List.map_eq_cons_iff.mp hlater
  dsimp only at hop hresult ⊢
  obtain ⟨hassert, hone⟩ := opened_of_one hop hresult
  have hkeeps : ∀ e ∈ e' :: rest', KeepsLimits limits e.op := by
    intro e he
    have hmem : e ∈ traceOf (windowStep (quotaOf limits) windowOp) (fun _ => none) ops :=
      hsplit ▸ List.mem_append_right before' he
    exact hlimits _ (mem_traceOf hmem)
  have hkey : limits key = ⟨limit, windowSeconds⟩ := by
    have hfirst := hkeeps e' List.mem_cons_self
    rw [hop] at hfirst
    exact hfirst
  have hlimit : (quotaOf limits key).limit = limit := congrArg KeyLimit.limit hkey
  have hlength : (quotaOf limits key).length = windowSeconds * 1000 := congrArg (fun q => q.windowSeconds * 1000) hkey
  have hhit : windowOp e'.op = .hit key := by
    rw [hop]
    unfold windowOp
    dsimp only
    rw [hassert]
  have hpos : 0 < (quotaOf limits key).limit := hlimit ▸ (assert_ok_iff.mp hassert).1.1
  have hbound := window_bound hmono (fun _ _ h => by cases h) hpos hsplit hhit hone
  rw [hlimit, hlength] at hbound
  refine le_trans ?_ hbound
  have hwhile : ((e' :: rest').map fun e => (⟨e.now, e.op, answerOf e.op e.result⟩ : Answered _ _)).takeWhile
      (fun e => !e.op.forgets key) =
      (untilDropped windowOp key (e' :: rest')).map fun e => ⟨e.now, e.op, answerOf e.op e.result⟩ := by
    rw [List.takeWhile_map]
    refine congrArg (List.map _) ?_
    unfold untilDropped
    simp only [drops_windowOp]
    rfl
  rw [List.map_cons] at hwhile
  rw [hwhile, List.countP_map]
  exact List.countP_mono_left fun e he h =>
    admits_of_allowed (hkeeps e ((List.takeWhile_sublist _).mem he)) h

end Traces

end Windows

/-- **The rate limit stores agree.**  On operations at instants that do not decrease, with a limit and a window for each
key and while the map evicts nothing, both stores answer alike, with cleanups at any time; and a window that an increment
opens allows at most the limit until the key is reset. -/
theorem rate_limit_stores_agree (limits : String → KeyLimit) (maxItems cleanupBatchSize : ℕ)
    (ops : List (ℕ × RateLimitOp)) (hmono : ops.Pairwise fun p q => p.1 ≤ q.1)
    (hlimits : ∀ p ∈ ops, KeepsLimits limits p.2) (hquiet : Along memoryStep NoEviction (.empty maxItems) ops) :
    traceOf memoryStep (.empty maxItems) ops = traceOf postgresStep (.empty cleanupBatchSize) ops ∧
      AtMostLimitUntilReset (traceOf memoryStep (.empty maxItems) ops) := by
  have hmemory := memory_trace maxItems hmono hlimits hquiet
  refine ⟨hmemory.trans (postgres_trace cleanupBatchSize hmono hlimits).symm, ?_⟩
  rw [hmemory]
  exact atMostLimit_windows hmono hlimits

def oneAMinute (_key : String) : KeyLimit := ⟨1, 60⟩

/-- A denied request, and one at the instant the window ends. -/
theorem rate_limit_stores_agree_at_expiry :
    traceOf memoryStep (.empty 10) [(0, .increment "k" 1 60), (59999, .increment "k" 1 60), (60000, .increment "k" 1 60)] =
        traceOf postgresStep (.empty 1000)
          [(0, .increment "k" 1 60), (59999, .increment "k" 1 60), (60000, .increment "k" 1 60)] ∧
      AtMostLimitUntilReset (traceOf memoryStep (.empty 10)
        [(0, .increment "k" 1 60), (59999, .increment "k" 1 60), (60000, .increment "k" 1 60)]) :=
  rate_limit_stores_agree oneAMinute 10 1000 _ (by decide) (by simp [KeepsLimits, oneAMinute])
    ⟨fun _ => by decide, fun _ => by decide, fun _ => by decide, trivial⟩

/-- A reset within the window, and a second request is allowed in it. -/
theorem reset_reopens_window :
    ¬ ∀ (limits : String → KeyLimit) (maxItems : ℕ) (ops : List (ℕ × RateLimitOp)), (ops.Pairwise fun p q => p.1 ≤ q.1) →
      (∀ p ∈ ops, KeepsLimits limits p.2) → Along memoryStep NoEviction (.empty maxItems) ops →
      AtMostLimit (traceOf memoryStep (.empty maxItems) ops) := by
  intro h
  have hbound := h oneAMinute 10 [(0, .increment "k" 1 60), (0, .reset "k"), (0, .increment "k" 1 60)] (by decide)
    (by simp [KeepsLimits, oneAMinute]) ⟨fun _ => by decide, trivial, fun _ => by decide, trivial⟩
    [] _ _ "k" 1 60 true rfl rfl rfl
  revert hbound
  decide

end TeamInbox.Api
