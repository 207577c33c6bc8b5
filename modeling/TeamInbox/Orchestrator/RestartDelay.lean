import Mathlib.Data.Int.ModEq
import Mathlib.Tactic.Linarith

/-!
# TeamInbox.Orchestrator.RestartDelay — how long a restart waits

A restart waits for the backoff of the configuration, doubled with each restart, up to a cap; some time is taken
off it at random.  Durations, in nanoseconds, are 64-bit integers, and the product is capped after it has wrapped around.  The first
product that does not fit is negative, and then the restart does not wait at all: the delays are those promised
exactly if the product at the last retry fits (`scheduleRestart_iff`).
-/

namespace TeamInbox.Orchestrator

def wrap64 (x : ℤ) : ℤ := (x + 9223372036854775808) % 18446744073709551616 - 9223372036854775808

def second : ℤ := 1000000000

def maxRestartBackoff : ℤ := 120 * second

/-- `time.Duration(1<<n)` -/
def shiftOne (n : ℕ) : ℤ := if 64 ≤ n then 0 else wrap64 (2 ^ n)

def nominalBackoff (autoRestartBackoff : ℤ) (restartCount : ℕ) : ℤ :=
  let backoff := wrap64 (autoRestartBackoff * shiftOne restartCount)
  if maxRestartBackoff < backoff then maxRestartBackoff else backoff

/-- `rand.Int64N(spread)` is what is drawn modulo `spread`. Half of a backoff has an exact floating-point value
up to the cap; of a negative one only the sign matters. -/
def applyRestartJitter (draw : ℕ) (backoff : ℤ) : ℤ :=
  let spread := backoff.tdiv 2
  if spread ≤ 0 then backoff else backoff - draw % spread

/-- How long `scheduleRestart` sleeps. -/
def restartDelay (draw : ℕ) (autoRestartBackoff : ℤ) (restartCount : ℕ) : ℤ :=
  applyRestartJitter draw (nominalBackoff autoRestartBackoff restartCount)

/-- The delays of all restarts that a configuration admits. -/
structure DelaysKept (autoRestartBackoff : ℤ) (autoRestartMaxRetries : ℤ) : Prop where
  bounded : ∀ restartCount : ℕ, (restartCount : ℤ) < autoRestartMaxRetries → ∀ draw,
    0 < restartDelay draw autoRestartBackoff restartCount ∧
      restartDelay draw autoRestartBackoff restartCount ≤ maxRestartBackoff ∧
        min (autoRestartBackoff * 2 ^ restartCount) maxRestartBackoff ≤ 2 * restartDelay draw autoRestartBackoff restartCount
  monotone : ∀ m n : ℕ, m ≤ n → (n : ℤ) < autoRestartMaxRetries →
    nominalBackoff autoRestartBackoff m ≤ nominalBackoff autoRestartBackoff n

variable {x y backoff : ℤ} {n : ℕ}

/-! ### Products that wrap around -/

theorem wrap64_of_fits (hlow : 0 ≤ x) (hhigh : x < 9223372036854775808) : wrap64 x = x := by
  unfold wrap64
  omega

theorem wrap64_neg (hlow : 9223372036854775808 ≤ x) (hhigh : x < 18446744073709551616) : wrap64 x < 0 := by
  unfold wrap64
  omega

theorem wrap64_modEq (x : ℤ) : wrap64 x ≡ x [ZMOD 18446744073709551616] := by
  unfold wrap64 Int.ModEq
  omega

theorem wrap64_congr (h : x ≡ y [ZMOD 18446744073709551616]) : wrap64 x = wrap64 y := by
  unfold Int.ModEq at h
  unfold wrap64
  omega

theorem wrap64_mul_shiftOne (backoff : ℤ) (n : ℕ) : wrap64 (backoff * shiftOne n) = wrap64 (backoff * 2 ^ n) := by
  refine wrap64_congr (Int.ModEq.mul_left backoff ?_)
  unfold shiftOne
  split
  · obtain ⟨k, rfl⟩ := Nat.exists_eq_add_of_le ‹64 ≤ n›
    refine (Int.modEq_zero_iff_dvd.mpr ⟨2 ^ k, ?_⟩).symm
    rw [pow_add]
    norm_num
  · exact wrap64_modEq _

theorem nominalBackoff_eq (backoff : ℤ) (n : ℕ) :
    nominalBackoff backoff n = min (wrap64 (backoff * 2 ^ n)) maxRestartBackoff := by
  unfold nominalBackoff
  rw [wrap64_mul_shiftOne]
  dsimp only
  split <;> omega

/-! ### Delays -/

theorem jitter_bounds (draw : ℕ) (h : 0 < backoff) : 0 < applyRestartJitter draw backoff ∧
    applyRestartJitter draw backoff ≤ backoff ∧ backoff ≤ 2 * applyRestartJitter draw backoff := by
  have htdiv : backoff.tdiv 2 = backoff / 2 := Int.tdiv_eq_ediv_of_nonneg (le_of_lt h)
  unfold applyRestartJitter
  rw [htdiv]
  dsimp only
  split
  · omega
  · have hlow := @Int.emod_nonneg draw (backoff / 2) (by omega)
    have hhigh := @Int.emod_lt_of_pos draw (backoff / 2) (by omega)
    omega

theorem jitter_of_nonpos (draw : ℕ) (h : backoff ≤ 0) : applyRestartJitter draw backoff = backoff := by
  unfold applyRestartJitter
  refine if_pos ?_
  have hneg : (-backoff).tdiv 2 = -backoff / 2 := Int.tdiv_eq_ediv_of_nonneg (by omega)
  rw [Int.neg_tdiv] at hneg
  omega

theorem double_le (h : 0 < backoff) {m n : ℕ} (hle : m ≤ n) : backoff * 2 ^ m ≤ backoff * 2 ^ n :=
  mul_le_mul_of_nonneg_left (pow_le_pow_right₀ (by norm_num) hle) (le_of_lt h)

theorem nominalBackoff_of_fits (h : 0 < backoff) (hfits : backoff * 2 ^ n < 9223372036854775808) :
    nominalBackoff backoff n = min (backoff * 2 ^ n) maxRestartBackoff := by
  rw [nominalBackoff_eq, wrap64_of_fits (by positivity) hfits]

theorem restartDelay_of_overflow (h : backoff * 2 ^ n < 9223372036854775808)
    (hover : 9223372036854775808 ≤ backoff * 2 ^ (n + 1)) (draw : ℕ) : restartDelay draw backoff (n + 1) < 0 := by
  have hhigh : backoff * 2 ^ (n + 1) < 18446744073709551616 := by
    rw [pow_succ]
    linarith
  have hneg := wrap64_neg hover hhigh
  have hnominal : nominalBackoff backoff (n + 1) < 0 := by
    rw [nominalBackoff_eq]
    omega
  unfold restartDelay
  rw [jitter_of_nonpos draw (le_of_lt hnominal)]
  exact hnominal

theorem delays_of_fits (h : 0 < backoff) {maxRetries : ℤ}
    (hfits : ∀ n : ℕ, (n : ℤ) < maxRetries → backoff * 2 ^ n < 9223372036854775808) : DelaysKept backoff maxRetries where
  bounded n hn draw := by
    have hpos : 0 < backoff * 2 ^ n := by positivity
    have hnominal := nominalBackoff_of_fits h (hfits n hn)
    obtain ⟨hlow, hhigh, hhalf⟩ := @jitter_bounds (nominalBackoff backoff n) draw (by
      rw [hnominal]
      exact lt_min hpos (by decide))
    unfold restartDelay
    rw [← hnominal]
    exact ⟨hlow, hhigh.trans (hnominal ▸ min_le_right _ _), hhalf⟩
  monotone m n hmn hn := by
    have hm : (m : ℤ) < maxRetries := by omega
    rw [nominalBackoff_of_fits h (hfits m hm), nominalBackoff_of_fits h (hfits n hn)]
    exact min_le_min_right _ (double_le h hmn)

/-- **The delays of a configuration** are positive, below the cap, at least half of what they should be and growing
exactly if the product at its last retry fits. -/
theorem scheduleRestart_iff (h : 0 < backoff) (hint : backoff < 9223372036854775808) (maxRetries : ℤ) :
    DelaysKept backoff maxRetries ↔ backoff * 2 ^ (maxRetries - 1).toNat < 9223372036854775808 := by
  constructor
  · intro hkept
    by_contra hover
    -- the delay goes wrong at the first product that does not fit
    have hex : ∃ n, 9223372036854775808 ≤ backoff * 2 ^ n := ⟨_, not_lt.mp hover⟩
    have hfirst := Nat.find_spec hex
    have hle : Nat.find hex ≤ (maxRetries - 1).toNat := Nat.find_min' hex (not_lt.mp hover)
    cases hn : Nat.find hex with
    | zero =>
      rw [hn, pow_zero, mul_one] at hfirst
      omega
    | succ n =>
      rw [hn] at hfirst hle
      have hbefore : backoff * 2 ^ n < 9223372036854775808 := not_le.mp (Nat.find_min hex (by omega))
      have hneg := restartDelay_of_overflow hbefore hfirst 0
      have hpos := (hkept.bounded (n + 1) (by omega) 0).1
      omega
  · refine fun hlast => delays_of_fits h fun n hn => lt_of_le_of_lt (double_le h ?_) hlast
    omega

/-- The defaults. -/
theorem scheduleRestart_iff_default : DelaysKept (5 * second) 5 :=
  (scheduleRestart_iff (by decide) (by decide) 5).mpr (by decide)

/-- Doubled thirty-one times, five seconds are beyond the range. -/
theorem restart_without_delay : ¬ DelaysKept (5 * second) 32 :=
  fun h => absurd (h.bounded 31 (by decide) 0).1 (by decide)

end TeamInbox.Orchestrator
