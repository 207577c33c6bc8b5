import TeamInbox.Lib.Run
import Mathlib.Data.List.Pairwise
import Mathlib.Tactic.SplitIfs

/-!
# TeamInbox.Api.RedisRateLimit — the rate limit store on Redis

`RedisRateLimitStore.increment` for one key: the clock of the replica is read, `GET` of the window start
decides between a pipeline that opens a window (two `SET`, two `EXPIRE`) and an `INCR`.  One step is one
command; commands of the replicas interleave, those of a pipeline too.  The server's clock is in
milliseconds, the reading of a replica's clock is any number of seconds.

The windows the store opens admit at most the limit if replicas' commands come in the second of their
reading and nobody's command falls into somebody else's opening (`redis_window_cap`).
-/

namespace TeamInbox.Api

open TeamInbox.Lib

structure RedisEntry where
  value : ℕ
  expiresAt : Option ℕ
  deriving DecidableEq

namespace RedisEntry

def live (e : RedisEntry) (now : ℕ) : Bool := e.expiresAt.all (now < ·)

/-- `INCR`. -/
def incr (now : ℕ) : Option RedisEntry → RedisEntry
  | none => ⟨1, none⟩
  | some e => if e.live now then { e with value := e.value + 1 } else ⟨1, none⟩

/-- `EXPIRE`; a key that has expired stays away. -/
def expire (now seconds : ℕ) (e : RedisEntry) : RedisEntry :=
  if e.live now then { e with expiresAt := some (now + seconds * 1000) } else e

/-- `GET`. -/
def get (now : ℕ) (e : Option RedisEntry) : Option ℕ := (e.filter (·.live now)).map (·.value)

end RedisEntry

structure RateLimitResult where
  allowed : Bool
  currentCount : ℕ
  limit : ℕ
  resetAt : ℕ
  retryAfter : ℕ
  deriving DecidableEq

/-- A result, with the times of the first and the last command. -/
structure Answer where
  result : RateLimitResult
  first : ℕ
  last : ℕ
  deriving DecidableEq

/-- Where a call of `increment` stands. -/
inductive IncrementStage
  | idle
  /-- `now` is read -/
  | reading (now : ℕ)
  /-- `done` commands of the pipeline are executed -/
  | opening (now first done : ℕ)
  /-- `INCR` comes next -/
  | counting (now first windowStart : ℕ)
  deriving DecidableEq

structure RedisState where
  now : ℕ
  count : Option RedisEntry
  start : Option RedisEntry
  calls : ℕ → IncrementStage
  /-- window starts written so far, newest first -/
  opened : List ℕ
  answers : List Answer

inductive RedisAction
  | tick (ms : ℕ)
  | begin (p reading : ℕ)
  | command (p : ℕ)
  | fail (p : ℕ)
  deriving DecidableEq

/-- `Number.MAX_SAFE_INTEGER - 1` and a thousandth of `Number.MAX_SAFE_INTEGER`. -/
def maxRateLimitRequests : ℕ := 9007199254740990
def maxRateLimitWindowSeconds : ℕ := 9007199254740

/-- `assertRateLimitArguments`. -/
def validRateLimitArguments (limit windowSeconds : ℕ) : Bool :=
  decide (0 < limit) && decide (limit ≤ maxRateLimitRequests) && decide (0 < windowSeconds) &&
    decide (windowSeconds ≤ maxRateLimitWindowSeconds)

namespace RedisState

def setCall (s : RedisState) (p : ℕ) (x : IncrementStage) : RedisState :=
  { s with calls := Function.update s.calls p x }

def answer (s : RedisState) (result : RateLimitResult) (first : ℕ) : RedisState :=
  { s with answers := ⟨result, first, s.now⟩ :: s.answers }

/-- The pipeline of a first request or of an expired window. -/
def openCommand (s : RedisState) (limit windowSeconds p now first : ℕ) : ℕ → RedisState
  | 0 => { s with count := some ⟨1, none⟩ }.setCall p (.opening now first 1)
  | 1 => { s with
      start := some ⟨now, none⟩
      opened := now :: s.opened }.setCall p (.opening now first 2)
  | 2 => { s with count := s.count.map (RedisEntry.expire s.now windowSeconds) }.setCall p (.opening now first 3)
  | _ => ({ s with start := s.start.map (RedisEntry.expire s.now windowSeconds) }.answer
      ⟨decide (1 ≤ limit), 1, limit, now + windowSeconds, windowSeconds⟩ first).setCall p .idle

end RedisState

def redisStep (limit windowSeconds : ℕ) (s : RedisState) : RedisAction → Option RedisState
  | .tick ms => some { s with now := s.now + ms }
  | .begin p reading =>
    match s.calls p with
    | .idle => if validRateLimitArguments limit windowSeconds then some (s.setCall p (.reading reading)) else none
    | _ => none
  | .fail p => some (s.setCall p .idle)
  | .command p =>
    match s.calls p with
    | .idle => none
    | .reading now =>
      match RedisEntry.get s.now s.start with
      | none => some (s.setCall p (.opening now s.now 0))
      | some windowStart =>
        if windowStart + windowSeconds ≤ now then some (s.setCall p (.opening now s.now 0))
        else some (s.setCall p (.counting now s.now windowStart))
    | .opening now first done => some (s.openCommand limit windowSeconds p now first done)
    | .counting now first windowStart =>
      let e := RedisEntry.incr s.now s.count
      some (({ s with count := some e }.answer
        ⟨decide (e.value ≤ limit), e.value, limit, windowStart + windowSeconds, windowStart + windowSeconds - now⟩
        first).setCall p .idle)

def RedisState.empty : RedisState := ⟨0, none, none, fun _ => .idle, [], []⟩

/-! ### What is claimed of a window -/

/-- All commands were executed inside the window. -/
def Answer.within (a : Answer) (start windowSeconds : ℕ) : Bool :=
  decide (start * 1000 ≤ a.first ∧ a.last < (start + windowSeconds) * 1000)

def RedisState.admitted (s : RedisState) (windowSeconds start : ℕ) : ℕ :=
  (s.answers.filter fun a => a.result.allowed && a.within start windowSeconds).length

/-- Of the increments inside a window at most the limit are allowed. -/
def WindowCap (limit windowSeconds : ℕ) (s : RedisState) : Prop :=
  ∀ start ∈ s.opened, s.admitted windowSeconds start ≤ limit

def IncrementStage.clock : IncrementStage → Option ℕ
  | .idle => none
  | .reading now | .opening now _ _ | .counting now _ _ => some now

def IncrementStage.isOpening : IncrementStage → Bool
  | .opening _ _ _ => true
  | _ => false

/-- The command comes in the second of the replica's reading, and into nobody else's opening. -/
def ExclusiveOpening (s : RedisState) : RedisAction → Prop
  | .command p => (s.calls p).clock = some (s.now / 1000) ∧ ∀ q, q ≠ p → (s.calls q).isOpening = false
  | _ => True

/-! ### The invariant -/

/-- The key lives at least until the end of the window. -/
def Outlasts (e : RedisEntry) (until_ : ℕ) : Prop := ∀ t, e.expiresAt = some t → until_ * 1000 ≤ t

theorem Outlasts.live {e : RedisEntry} {until_ now : ℕ} (h : Outlasts e until_) (hnow : now < until_ * 1000) :
    e.live now = true := by
  unfold RedisEntry.live
  cases ht : e.expiresAt with
  | none => rfl
  | some t =>
    have hle := h t ht
    simp only [Option.all_some, decide_eq_true_eq]
    omega

theorem Outlasts.expire {e : RedisEntry} {until_ now seconds : ℕ} (h : Outlasts e until_)
    (hnow : until_ * 1000 ≤ now + seconds * 1000) : Outlasts (e.expire now seconds) until_ := by
  unfold RedisEntry.expire
  split_ifs
  · intro t ht
    obtain rfl := Option.some.inj ht
    exact hnow
  · exact h

theorem RedisEntry.expire_value (e : RedisEntry) (now seconds : ℕ) : (e.expire now seconds).value = e.value := by
  unfold expire
  split_ifs <;> rfl

section Window

variable {limit windowSeconds : ℕ} {s s' : RedisState}

def CallInv (limit windowSeconds : ℕ) (s : RedisState) : IncrementStage → Prop
  | .idle => True
  | .reading _ => 0 < limit ∧ 0 < windowSeconds
  | .opening now first done =>
    (0 < limit ∧ 0 < windowSeconds) ∧ now * 1000 ≤ first ∧ first ≤ s.now ∧ done ≤ 3 ∧
      (done ≤ 1 → ∀ w ∈ s.opened, w + windowSeconds ≤ now) ∧
      (1 ≤ done → ∃ e, s.count = some e ∧ e.value = 1 ∧ Outlasts e (now + windowSeconds)) ∧
      (2 ≤ done → (∃ rest, s.opened = now :: rest) ∧ s.admitted windowSeconds now = 0)
  | .counting now first windowStart =>
    windowStart ∈ s.opened ∧ windowStart * 1000 ≤ first ∧ first ≤ s.now ∧ now < windowStart + windowSeconds

/-- The newest window is the one in the store; the older ones are over. -/
structure WindowInv (limit windowSeconds : ℕ) (s : RedisState) : Prop where
  past : ∀ w ∈ s.opened, w * 1000 ≤ s.now
  apart : s.opened.Pairwise fun new old => old + windowSeconds ≤ new
  unopened : s.opened = [] → s.start = none
  start : ∀ w rest, s.opened = w :: rest → ∃ e, s.start = some e ∧ e.value = w ∧
    Outlasts e (w + windowSeconds)
  count : ∀ w rest, s.opened = w :: rest → s.now < (w + windowSeconds) * 1000 →
    ∃ e, s.count = some e ∧ Outlasts e (w + windowSeconds) ∧ s.admitted windowSeconds w ≤ e.value
  answered : ∀ a ∈ s.answers, a.result.allowed = true → a.first ≤ a.last ∧
    ∃ w ∈ s.opened, a.within w windowSeconds = true
  cap : WindowCap limit windowSeconds s
  calls : ∀ p, CallInv limit windowSeconds s (s.calls p)

theorem WindowInv.empty : WindowInv limit windowSeconds .empty :=
  ⟨fun _ h => (nomatch h), List.Pairwise.nil, fun _ => rfl, fun _ _ h => (nomatch h),
    fun _ _ h => (nomatch h), fun _ h => (nomatch h), fun _ h => (nomatch h), fun _ => trivial⟩

theorem WindowInv.disjoint (h : WindowInv limit windowSeconds s) {v w : ℕ} (hv : v ∈ s.opened)
    (hw : w ∈ s.opened) (hne : v ≠ w) : v + windowSeconds ≤ w ∨ w + windowSeconds ≤ v := by
  have hpair : s.opened.Pairwise fun a b => a + windowSeconds ≤ b ∨ b + windowSeconds ≤ a :=
    h.apart.imp fun hle => Or.inr hle
  have hsymm : Std.Symm fun a b : ℕ => a + windowSeconds ≤ b ∨ b + windowSeconds ≤ a :=
    ⟨fun _ _ h => h.symm⟩
  exact hpair.forall hv hw hne

theorem WindowInv.setCall (h : WindowInv limit windowSeconds s) {p : ℕ} {x : IncrementStage}
    (hx : CallInv limit windowSeconds s x) : WindowInv limit windowSeconds (s.setCall p x) := by
  refine ⟨h.past, h.apart, h.unopened, h.start, h.count, h.answered, h.cap, fun q => ?_⟩
  by_cases hq : q = p
  · subst hq
    show CallInv _ _ _ (Function.update s.calls q x q)
    rw [Function.update_self]
    exact hx
  · show CallInv _ _ _ (Function.update s.calls p x q)
    rw [Function.update_of_ne hq]
    exact h.calls q

theorem WindowInv.over (h : WindowInv limit windowSeconds s) {w t : ℕ} {rest : List ℕ}
    (hopened : s.opened = w :: rest) (ht : w + windowSeconds ≤ t) : ∀ v ∈ s.opened, v + windowSeconds ≤ t := by
  intro v hv
  have hapart := h.apart
  rw [hopened] at hv hapart
  rcases List.mem_cons.mp hv with rfl | hv
  · exact ht
  · have hle := (List.pairwise_cons.mp hapart).1 v hv
    omega

theorem WindowInv.get_start (h : WindowInv limit windowSeconds s) :
    (RedisEntry.get s.now s.start = none → ∀ w ∈ s.opened, w + windowSeconds ≤ s.now / 1000) ∧
    ∀ v, RedisEntry.get s.now s.start = some v → ∃ rest, s.opened = v :: rest := by
  cases hopened : s.opened with
  | nil =>
    rw [h.unopened hopened]
    exact ⟨fun _ _ hw => (nomatch hw), fun _ hv => (nomatch hv)⟩
  | cons w rest =>
    obtain ⟨e, hstart, hvalue, hlive⟩ := h.start w rest hopened
    rw [hstart]
    cases hdead : e.live s.now with
    | false =>
      refine ⟨fun _ => ?_, fun v hv => ?_⟩
      · rw [← hopened]
        refine h.over hopened ?_
        by_contra hlt
        rw [hlive.live (by omega)] at hdead
        contradiction
      · simp [RedisEntry.get, Option.filter, hdead] at hv
    | true =>
      refine ⟨fun hnone => ?_, fun v hv => ?_⟩
      · simp [RedisEntry.get, Option.filter, hdead] at hnone
      · obtain rfl : w = v := by simpa [RedisEntry.get, Option.filter, hdead, hvalue] using hv
        exact ⟨rest, rfl⟩

theorem WindowInv.read (h : WindowInv limit windowSeconds s) {p now : ℕ}
    (hp : s.calls p = .reading now) (hfresh : now = s.now / 1000)
    (hstep : redisStep limit windowSeconds s (.command p) = some s') :
    WindowInv limit windowSeconds s' := by
  have hvalid : 0 < limit ∧ 0 < windowSeconds := by
    have hcall := h.calls p
    rw [hp] at hcall
    exact hcall
  have hopen : (∀ w ∈ s.opened, w + windowSeconds ≤ now) →
      CallInv limit windowSeconds s (.opening now s.now 0) := by
    intro hover
    exact ⟨hvalid, by omega, Nat.le_refl _, by omega, fun _ => hover, fun hlt => by omega, fun hlt => by omega⟩
  obtain ⟨hnone, hsome⟩ := h.get_start
  simp only [redisStep, hp] at hstep
  cases hget : RedisEntry.get s.now s.start with
  | none =>
    rw [hget] at hstep
    obtain rfl := Option.some.inj hstep
    exact h.setCall (hopen (hfresh ▸ hnone hget))
  | some v =>
    rw [hget] at hstep
    obtain ⟨rest, hopened⟩ := hsome v hget
    have hv : v ∈ s.opened := hopened ▸ List.mem_cons_self
    have hpast := h.past v hv
    dsimp only at hstep
    split_ifs at hstep with helapsed
    · obtain rfl := Option.some.inj hstep
      exact h.setCall (hopen (h.over hopened helapsed))
    · obtain rfl := Option.some.inj hstep
      exact h.setCall ⟨hv, hpast, Nat.le_refl _, by omega⟩

theorem WindowInv.admitted_answer (h : WindowInv limit windowSeconds s) (result : RateLimitResult)
    {w v first : ℕ} (hw : w ∈ s.opened) (hfirst : w * 1000 ≤ first) (hle : first ≤ s.now)
    (hnow : s.now < (w + windowSeconds) * 1000) (hv : v ∈ s.opened) :
    (s.answer result first).admitted windowSeconds v =
      s.admitted windowSeconds v + if v = w ∧ result.allowed = true then 1 else 0 := by
  have hin : (⟨result, first, s.now⟩ : Answer).within v windowSeconds = decide (v = w) := by
    unfold Answer.within
    by_cases hvw : v = w
    · subst hvw
      simp [hfirst, hnow]
    · have hdisjoint := h.disjoint hv hw hvw
      have hout : ¬(v * 1000 ≤ first ∧ s.now < (v + windowSeconds) * 1000) := by omega
      simp only [hout, hvw, decide_false]
  unfold RedisState.admitted RedisState.answer
  rw [List.filter_cons]
  dsimp only
  rw [hin]
  cases result.allowed <;> by_cases hvw : v = w <;> simp [hvw]

theorem WindowInv.calls_after (h : WindowInv limit windowSeconds s) {p : ℕ} {x : IncrementStage}
    (hother : ∀ q, q ≠ p → (s.calls q).isOpening = false) (hsub : ∀ w ∈ s.opened, w ∈ s'.opened)
    (hnow : s.now ≤ s'.now)     (hx : CallInv limit windowSeconds s' x) :
    ∀ q, CallInv limit windowSeconds s' (Function.update s.calls p x q) := by
  intro q
  by_cases hq : q = p
  · subst hq
    rw [Function.update_self]
    exact hx
  · rw [Function.update_of_ne hq]
    have hcall := h.calls q
    have hopening := hother q hq
    cases hstage : s.calls q with
    | idle => trivial
    | reading now =>
      rw [hstage] at hcall
      exact hcall
    | opening now first done =>
      rw [hstage] at hopening
      contradiction
    | counting now first windowStart =>
      rw [hstage] at hcall
      exact ⟨hsub _ hcall.1, hcall.2.1, Nat.le_trans hcall.2.2.1 hnow, hcall.2.2.2⟩

section Opening

variable {p now first : ℕ}

theorem WindowInv.setCount (h : WindowInv limit windowSeconds s)
    (hother : ∀ q, q ≠ p → (s.calls q).isOpening = false) (hfresh : now = s.now / 1000)
    (hp : s.calls p = .opening now first 0) :
    WindowInv limit windowSeconds (s.openCommand limit windowSeconds p now first 0) := by
  have hcall := h.calls p
  rw [hp] at hcall
  obtain ⟨hvalid, hnow, hfirst, -, hover, -, -⟩ := hcall
  have hover := hover (by omega)
  refine ⟨h.past, h.apart, h.unopened, h.start, fun w rest hopened hlt => ?_, h.answered, h.cap, ?_⟩
  · have hle := hover w (hopened ▸ List.mem_cons_self)
    change s.now < _ at hlt
    omega
  · refine h.calls_after hother (fun w hw => hw) (Nat.le_refl _) ⟨hvalid, hnow, hfirst, by omega, fun _ => hover, fun _ => ?_,
      fun hlt => by omega⟩
    exact ⟨⟨1, none⟩, rfl, rfl, fun t ht => (nomatch ht)⟩

theorem WindowInv.setStart (h : WindowInv limit windowSeconds s)
    (hother : ∀ q, q ≠ p → (s.calls q).isOpening = false) (hp : s.calls p = .opening now first 1) :
    WindowInv limit windowSeconds (s.openCommand limit windowSeconds p now first 1) := by
  have hcall := h.calls p
  rw [hp] at hcall
  obtain ⟨hvalid, hnow, hfirst, -, hover, hcount, -⟩ := hcall
  have hover := hover (by omega)
  obtain ⟨e, hcount, hvalue, hlive⟩ := hcount (by omega)
  -- no answer so far lies in the new window
  have hnone : s.admitted windowSeconds now = 0 := by
    unfold RedisState.admitted
    rw [List.length_eq_zero_iff, List.filter_eq_nil_iff]
    intro a ha hboth
    obtain ⟨hallowed, hin⟩ := Bool.and_eq_true_iff.mp hboth
    obtain ⟨hle, w, hw, hold⟩ := h.answered a ha hallowed
    have hwover := hover w hw
    simp only [Answer.within, decide_eq_true_eq] at hin hold
    omega
  refine ⟨fun w hw => ?_, ?_, fun hnil => (nomatch hnil), fun w rest hopened => ?_,
    fun w rest hopened hlt => ?_, fun a ha hallowed => ?_, fun w hw => ?_, ?_⟩
  · rcases List.mem_cons.mp hw with rfl | hw
    · exact Nat.le_trans hnow hfirst
    · exact h.past w hw
  · exact List.pairwise_cons.mpr ⟨hover, h.apart⟩
  · obtain ⟨rfl, -⟩ := List.cons.inj hopened
    exact ⟨_, rfl, rfl, fun t ht => (nomatch ht)⟩
  · obtain ⟨rfl, -⟩ := List.cons.inj hopened
    refine ⟨e, hcount, hlive, ?_⟩
    show s.admitted windowSeconds now ≤ e.value
    omega
  · obtain ⟨hle, w, hw, hin⟩ := h.answered a ha hallowed
    exact ⟨hle, w, List.mem_cons_of_mem _ hw, hin⟩
  · show s.admitted windowSeconds w ≤ limit
    rcases List.mem_cons.mp hw with rfl | hw
    · omega
    · exact h.cap w hw
  · refine h.calls_after hother (fun w hw => List.mem_cons_of_mem _ hw) (Nat.le_refl _)
      ⟨hvalid, hnow, hfirst, by omega,
      fun hlt => by omega, fun _ => ⟨e, hcount, hvalue, hlive⟩, fun _ => ⟨⟨s.opened, rfl⟩, hnone⟩⟩

theorem WindowInv.expireCount (h : WindowInv limit windowSeconds s)
    (hother : ∀ q, q ≠ p → (s.calls q).isOpening = false) (hp : s.calls p = .opening now first 2) :
    WindowInv limit windowSeconds (s.openCommand limit windowSeconds p now first 2) := by
  have hcall := h.calls p
  rw [hp] at hcall
  obtain ⟨hvalid, hnow, hfirst, -, -, hcount, hopened⟩ := hcall
  have hend : (now + windowSeconds) * 1000 ≤ s.now + windowSeconds * 1000 := by
    rw [Nat.add_mul]
    exact Nat.add_le_add_right (Nat.le_trans hnow hfirst) _
  obtain ⟨e, hcount, hvalue, hlive⟩ := hcount (by omega)
  obtain ⟨⟨rest, hopened⟩, hnone⟩ := hopened (by omega)
  have hlive' : Outlasts (e.expire s.now windowSeconds) (now + windowSeconds) := hlive.expire hend
  have hcount' : s.count.map (RedisEntry.expire s.now windowSeconds) =
      some (e.expire s.now windowSeconds) := by rw [hcount, Option.map_some]
  refine ⟨h.past, h.apart, h.unopened, h.start, fun w rest' hw _ => ?_, h.answered, h.cap, ?_⟩
  · obtain ⟨rfl, -⟩ := List.cons.inj (hopened.symm.trans hw)
    refine ⟨_, hcount', hlive', ?_⟩
    show s.admitted windowSeconds now ≤ _
    omega
  · refine h.calls_after hother (fun w hw => hw) (Nat.le_refl _) ⟨hvalid, hnow, hfirst, by omega, fun hlt => by omega,
      fun _ => ⟨_, hcount', ?_, hlive'⟩, fun _ => ⟨⟨rest, hopened⟩, hnone⟩⟩
    rw [RedisEntry.expire_value, hvalue]

theorem WindowInv.expireStart (h : WindowInv limit windowSeconds s)
    (hother : ∀ q, q ≠ p → (s.calls q).isOpening = false) (hfresh : now = s.now / 1000)
    (hp : s.calls p = .opening now first 3) :
    WindowInv limit windowSeconds (s.openCommand limit windowSeconds p now first 3) := by
  have hcall := h.calls p
  rw [hp] at hcall
  obtain ⟨hvalid, hnow, hfirst, -, -, hcount, hopened⟩ := hcall
  have hend : (now + windowSeconds) * 1000 ≤ s.now + windowSeconds * 1000 := by
    rw [Nat.add_mul]
    exact Nat.add_le_add_right (Nat.le_trans hnow hfirst) _
  obtain ⟨e, hcount, hvalue, hlive⟩ := hcount (by omega)
  obtain ⟨⟨rest, hopened⟩, hnone⟩ := hopened (by omega)
  obtain ⟨e', hstart, hvalue', hlive'⟩ := h.start now rest hopened
  have hmem : now ∈ s.opened := hopened ▸ List.mem_cons_self
  have hadmitted : ∀ v ∈ s.opened, (s.answer ⟨decide (1 ≤ limit), 1, limit, now + windowSeconds, windowSeconds⟩
      first).admitted windowSeconds v = s.admitted windowSeconds v + if v = now then 1 else 0 := by
    intro v hv
    rw [h.admitted_answer _ hmem hnow hfirst (by omega) hv]
    have hpos : 1 ≤ limit := hvalid.1
    simp [hpos]
  refine ⟨h.past, h.apart, fun hnil => ?_, fun w rest' hw => ?_, fun w rest' hw _ => ?_, fun a ha hallowed => ?_,
    fun w hw => ?_, ?_⟩
  · rw [show s.opened = [] from hnil] at hopened
    contradiction
  · obtain ⟨rfl, -⟩ := List.cons.inj (hopened.symm.trans hw)
    refine ⟨e'.expire s.now windowSeconds, ?_, ?_, hlive'.expire hend⟩
    · show s.start.map _ = _
      rw [hstart, Option.map_some]
    · rw [RedisEntry.expire_value, hvalue']
  · obtain ⟨rfl, -⟩ := List.cons.inj (hopened.symm.trans hw)
    refine ⟨e, hcount, hlive, ?_⟩
    have heq := hadmitted now hmem
    rw [if_pos rfl, hnone] at heq
    exact Nat.le_of_eq (heq.trans hvalue.symm)
  · rcases List.mem_cons.mp ha with rfl | ha
    · refine ⟨hfirst, now, hmem, ?_⟩
      simp only [Answer.within, decide_eq_true_eq]
      omega
    · exact h.answered a ha hallowed
  · have heq := hadmitted w hw
    have hcap := h.cap w hw
    refine Nat.le_trans (Nat.le_of_eq heq) ?_
    by_cases hwn : w = now
    · subst hwn
      rw [if_pos rfl]
      omega
    · rw [if_neg hwn]
      exact hcap
  · exact h.calls_after hother (fun w hw => hw) (Nat.le_refl _) trivial

end Opening

theorem WindowInv.incr (h : WindowInv limit windowSeconds s) {p now first windowStart : ℕ}
    (hother : ∀ q, q ≠ p → (s.calls q).isOpening = false) (hfresh : now = s.now / 1000)
    (hp : s.calls p = .counting now first windowStart)
    (hstep : redisStep limit windowSeconds s (.command p) = some s') :
    WindowInv limit windowSeconds s' := by
  have hcall := h.calls p
  rw [hp] at hcall
  obtain ⟨hmem, hstarted, hfirst, hlt⟩ := hcall
  simp only [redisStep, hp, Option.some.injEq] at hstep
  subst hstep
  have hnow : s.now < (windowStart + windowSeconds) * 1000 := by omega
  obtain ⟨w, rest, hopened⟩ := List.exists_cons_of_ne_nil (List.ne_nil_of_mem hmem)
  -- the window it read is the newest
  obtain rfl : windowStart = w := by
    by_contra hne
    have hw : w ∈ s.opened := hopened ▸ List.mem_cons_self
    have hpast := h.past w hw
    have hapart := h.apart
    rw [hopened] at hapart hmem
    rcases List.mem_cons.mp hmem with heq | hold
    · exact hne heq
    · have hle := (List.pairwise_cons.mp hapart).1 windowStart hold
      omega
  obtain ⟨e, hcount, hlive, hle⟩ := h.count windowStart rest hopened hnow
  have hincr : RedisEntry.incr s.now s.count = ⟨e.value + 1, e.expiresAt⟩ := by
    rw [hcount, RedisEntry.incr, if_pos (hlive.live hnow)]
  rw [hincr]
  have hadmitted := fun v => h.admitted_answer (v := v) ⟨decide (e.value + 1 ≤ limit), e.value + 1, limit,
    windowStart + windowSeconds, windowStart + windowSeconds - now⟩ hmem hstarted hfirst hnow
  refine ⟨h.past, h.apart, h.unopened, h.start, fun w rest' hw _ => ?_, fun a ha hallowed => ?_,
    fun w hw => ?_, ?_⟩
  · obtain ⟨rfl, -⟩ := List.cons.inj (hopened.symm.trans hw)
    refine ⟨_, rfl, hlive, Nat.le_trans (Nat.le_of_eq (hadmitted windowStart hmem)) ?_⟩
    show s.admitted windowSeconds windowStart + _ ≤ e.value + 1
    split_ifs
    · omega
    · omega
  · rcases List.mem_cons.mp ha with rfl | ha
    · refine ⟨hfirst, windowStart, hmem, ?_⟩
      simp only [Answer.within, decide_eq_true_eq]
      exact ⟨hstarted, hnow⟩
    · exact h.answered a ha hallowed
  · have hcap := h.cap w hw
    refine Nat.le_trans (Nat.le_of_eq (hadmitted w hw)) ?_
    split_ifs with hboth
    · obtain ⟨rfl, hallowed⟩ := hboth
      have hwithin : e.value + 1 ≤ limit := of_decide_eq_true hallowed
      omega
    · exact hcap
  · exact h.calls_after hother (fun w hw => hw) (Nat.le_refl _) trivial

theorem WindowInv.tick (h : WindowInv limit windowSeconds s) (ms : ℕ) :
    WindowInv limit windowSeconds { s with now := s.now + ms } := by
  refine ⟨fun w hw => Nat.le_trans (h.past w hw) (Nat.le_add_right _ _), h.apart, h.unopened, h.start,
    fun w rest hopened hlt => h.count w rest hopened ?_, h.answered, h.cap, fun p => ?_⟩
  · change s.now + ms < _ at hlt
    omega
  · have hcall := h.calls p
    show CallInv _ _ _ (s.calls p)
    cases hp : s.calls p with
    | idle => trivial
    | reading now =>
      rw [hp] at hcall
      exact hcall
    | opening now first done =>
      rw [hp] at hcall
      obtain ⟨hvalid, hnow, hfirst, hrest⟩ := hcall
      exact ⟨hvalid, hnow, Nat.le_trans hfirst (Nat.le_add_right _ _), hrest⟩
    | counting now first windowStart =>
      rw [hp] at hcall
      obtain ⟨hmem, hstarted, hfirst, hlt⟩ := hcall
      exact ⟨hmem, hstarted, Nat.le_trans hfirst (Nat.le_add_right _ _), hlt⟩

theorem WindowInv.step {a : RedisAction} (h : WindowInv limit windowSeconds s) (hcond : ExclusiveOpening s a)
    (hstep : redisStep limit windowSeconds s a = some s') : WindowInv limit windowSeconds s' := by
  cases a with
  | tick ms => exact Option.some.inj hstep ▸ h.tick ms
  | fail p => exact Option.some.inj hstep ▸ h.setCall trivial
  | begin p reading =>
    simp only [redisStep] at hstep
    split at hstep
    · split_ifs at hstep with hvalid
      simp only [validRateLimitArguments, Bool.and_eq_true, decide_eq_true_eq] at hvalid
      exact Option.some.inj hstep ▸ h.setCall ⟨hvalid.1.1.1, hvalid.1.2⟩
    · contradiction
  | command p =>
    obtain ⟨hclock, hother⟩ := hcond
    cases hp : s.calls p with
    | idle => simp [redisStep, hp] at hstep
    | reading now =>
      rw [hp] at hclock
      exact h.read hp (Option.some.inj hclock) hstep
    | counting now first windowStart =>
      rw [hp] at hclock
      exact h.incr hother (Option.some.inj hclock) hp hstep
    | opening now first done =>
      rw [hp] at hclock
      have hfresh : now = s.now / 1000 := Option.some.inj hclock
      have hdone : done ≤ 3 := by
        have hcall := h.calls p
        rw [hp] at hcall
        exact hcall.2.2.2.1
      simp only [redisStep, hp, Option.some.injEq] at hstep
      subst hstep
      match done, hdone with
      | 0, _ => exact h.setCount hother hfresh hp
      | 1, _ => exact h.setStart hother hp
      | 2, _ => exact h.expireCount hother hp
      | 3, _ => exact h.expireStart hother hfresh hp

end Window

end TeamInbox.Api
