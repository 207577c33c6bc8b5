import Mathlib.Data.List.Basic
import Mathlib.Data.List.Induction
import Mathlib.Tactic.Ring

/-!
# TeamInbox.Lib.IsoDate — times and their texts

A time is a number of milliseconds since 1970, at most a hundred million days from it.  Its text has the civil date
and the time of the day in fields of fixed width, a year outside 0 to 9999 with a sign and six digits.  The number
of the day comes back from the civil date (`daysFromCivil_civilFromDays`) and the time from its text
(`readIso_toISOString`).
-/

namespace TeamInbox.Lib

/-! ### Civil dates -/

structure CivilDate where
  year : ℤ
  month : ℕ
  day : ℕ

/-- The year is counted from March, so that a leap day is its last day; months have 153 days in every five of them. -/
def civilFromDays (z : ℤ) : CivilDate :=
  let era := (z + 719468) / 146097
  let dayOfEra := ((z + 719468) % 146097).toNat
  let century := min (dayOfEra / 36524) 3
  let dayOfCentury := dayOfEra - 36524 * century
  let leapYears := dayOfCentury / 1461
  let dayOfFour := dayOfCentury % 1461
  let yearOfFour := min (dayOfFour / 365) 3
  let dayOfYear := dayOfFour - 365 * yearOfFour
  let yearOfEra := 100 * century + 4 * leapYears + yearOfFour
  let m := (5 * dayOfYear + 2) / 153
  {
    year := 400 * era + yearOfEra + (if m < 10 then 0 else 1)
    month := if m < 10 then m + 3 else m - 9
    day := dayOfYear - (153 * m + 2) / 5 + 1
  }

def daysFromCivil (d : CivilDate) : ℤ :=
  let y := if d.month ≤ 2 then d.year - 1 else d.year
  let yearOfEra := y % 400
  let m := if d.month ≤ 2 then d.month + 9 else d.month - 3
  let dayOfYear := (153 * m + 2) / 5 + d.day - 1
  y / 400 * 146097 + (365 * yearOfEra + yearOfEra / 4 - yearOfEra / 100 + dayOfYear) - 719468

theorem day_of_era {e : ℕ} (he : e < 146097) :
    ∃ c q y d : ℕ, c = min (e / 36524) 3 ∧ q = (e - 36524 * c) / 1461 ∧ y = min ((e - 36524 * c) % 1461 / 365) 3 ∧
      d = (e - 36524 * c) % 1461 - 365 * y ∧ c ≤ 3 ∧ q ≤ 24 ∧ y ≤ 3 ∧ d ≤ 365 ∧ e = 36524 * c + 1461 * q + 365 * y + d := by
  refine ⟨_, _, _, _, rfl, rfl, rfl, rfl, ?_⟩
  omega

theorem civilFromDays_bounds (z : ℤ) :
    1 ≤ (civilFromDays z).month ∧ (civilFromDays z).month ≤ 12 ∧ 1 ≤ (civilFromDays z).day ∧ (civilFromDays z).day ≤ 31 := by
  obtain ⟨c, q, y, d, hc, hq, hy, hd, -, -, -, hdle, -⟩ := day_of_era (e := ((z + 719468) % 146097).toNat) (by omega)
  simp only [civilFromDays, ← hc, ← hq, ← hy, ← hd]
  split_ifs <;> omega

theorem civilFromDays_year {z : ℤ} (hlow : -100000000 ≤ z) (hhigh : z ≤ 100000000) :
    -999999 ≤ (civilFromDays z).year ∧ (civilFromDays z).year ≤ 999999 := by
  obtain ⟨c, q, y, d, hc, hq, hy, hd, hcle, hqle, hyle, -, -⟩ := day_of_era (e := ((z + 719468) % 146097).toNat) (by omega)
  simp only [civilFromDays, ← hc, ← hq, ← hy, ← hd]
  split_ifs <;> omega

/-- The years before a year of an era, and the leap years among them. -/
theorem year_of_era (era : ℤ) {c q y : ℕ} (hc : c ≤ 3) (hq : q ≤ 24) (hy : y ≤ 3) :
    (400 * era + ((100 * c + 4 * q + y : ℕ) : ℤ)) / 400 = era ∧
      (400 * era + ((100 * c + 4 * q + y : ℕ) : ℤ)) % 400 = ((100 * c + 4 * q + y : ℕ) : ℤ) ∧
      ((100 * c + 4 * q + y : ℕ) : ℤ) / 4 = 25 * c + q ∧ ((100 * c + 4 * q + y : ℕ) : ℤ) / 100 = c := by
  omega

theorem daysFromCivil_civilFromDays (z : ℤ) : daysFromCivil (civilFromDays z) = z := by
  obtain ⟨c, q, y, d, hc, hq, hy, hd, hcle, hqle, hyle, hdle, he⟩ :=
    day_of_era (e := ((z + 719468) % 146097).toNat) (by omega)
  obtain ⟨hera, hyear, hleap, hcentury⟩ := year_of_era ((z + 719468) / 146097) hcle hqle hyle
  have hz : z + 719468 = 146097 * ((z + 719468) / 146097) + (36524 * c + 1461 * q + 365 * y + d : ℕ) := by omega
  simp only [daysFromCivil, civilFromDays, ← hc, ← hq, ← hy, ← hd]
  by_cases hm : (5 * d + 2) / 153 < 10
  · have hmonth : ¬ (5 * d + 2) / 153 + 3 ≤ 2 := by omega
    have hback : (5 * d + 2) / 153 + 3 - 3 = (5 * d + 2) / 153 := by omega
    have hday : (153 * ((5 * d + 2) / 153) + 2) / 5 + (d - (153 * ((5 * d + 2) / 153) + 2) / 5 + 1) - 1 = d := by omega
    simp only [if_pos hm, if_neg hmonth, add_zero, hera, hyear, hleap, hcentury, hback, hday]
    omega
  · have hmonth : (5 * d + 2) / 153 - 9 ≤ 2 := by omega
    have hback : (5 * d + 2) / 153 - 9 + 9 = (5 * d + 2) / 153 := by omega
    have hday : (153 * ((5 * d + 2) / 153) + 2) / 5 + (d - (153 * ((5 * d + 2) / 153) + 2) / 5 + 1) - 1 = d := by omega
    simp only [if_neg hm, if_pos hmonth, add_sub_cancel_right, hera, hyear, hleap, hcentury, hback, hday]
    omega

/-! ### Fields of digits -/

def fixedDigits : ℕ → ℕ → List Char
  | 0, _ => []
  | width + 1, n => fixedDigits width (n / 10) ++ [Nat.digitChar (n % 10)]

def readDigits (text : List Char) : ℕ := text.foldl (fun n c => 10 * n + (c.toNat - 48)) 0

@[simp] theorem length_fixedDigits (width n : ℕ) : (fixedDigits width n).length = width := by
  induction width generalizing n with
  | zero => rfl
  | succ width ih => simp [fixedDigits, ih]

theorem digitChar_digit : ∀ n < 10, (Nat.digitChar n).isDigit = true ∧ (Nat.digitChar n).toNat - 48 = n := by decide

theorem isDigit_fixedDigits (width n : ℕ) : ∀ c ∈ fixedDigits width n, c.isDigit = true := by
  induction width generalizing n with
  | zero => exact List.forall_mem_nil _
  | succ width ih =>
    intro c hc
    rcases List.mem_append.mp hc with hc | hc
    · exact ih _ c hc
    · rw [List.mem_singleton.mp hc]
      exact (digitChar_digit (n % 10) (by omega)).1

theorem readDigits_append (a b : List Char) : readDigits (a ++ b) = readDigits a * 10 ^ b.length + readDigits b := by
  induction b using List.reverseRecOn with
  | nil => simp [readDigits]
  | append_singleton b c ih =>
    rw [← List.append_assoc]
    simp only [readDigits, List.foldl_append, List.foldl_cons, List.foldl_nil, List.length_append, List.length_cons,
      List.length_nil] at ih ⊢
    rw [ih]
    ring

theorem readDigits_fixedDigits {width n : ℕ} (h : n < 10 ^ width) : readDigits (fixedDigits width n) = n := by
  induction width generalizing n with
  | zero =>
    have hzero : n = 0 := by simpa using h
    rw [hzero]
    rfl
  | succ width ih =>
    have hdiv : n / 10 < 10 ^ width := by
      rw [Nat.div_lt_iff_lt_mul (by decide)]
      rwa [pow_succ] at h
    rw [fixedDigits, readDigits_append, ih hdiv]
    have hlast : readDigits [Nat.digitChar (n % 10)] = n % 10 := by
      have hdigit := (digitChar_digit (n % 10) (by omega)).2
      simpa [readDigits] using hdigit
    rw [hlast, List.length_singleton, pow_one]
    omega

/-! ### Times -/

/-- The times a `Date` can hold. -/
def DateRange (ms : ℤ) : Prop := -8640000000000000 ≤ ms ∧ ms ≤ 8640000000000000

instance (ms : ℤ) : Decidable (DateRange ms) := inferInstanceAs (Decidable (_ ∧ _))

structure Date where
  ms : ℤ
  inRange : DateRange ms
deriving DecidableEq

def yearText (year : ℤ) : List Char :=
  if year < 0 then '-' :: fixedDigits 6 year.natAbs
  else if 9999 < year then '+' :: fixedDigits 6 year.natAbs
  else fixedDigits 4 year.natAbs

def toISOString (date : Date) : List Char :=
  let day := civilFromDays (date.ms / 86400000)
  let time := (date.ms % 86400000).toNat
  yearText day.year ++ '-' :: fixedDigits 2 day.month ++ '-' :: fixedDigits 2 day.day ++
    'T' :: fixedDigits 2 (time / 3600000) ++ ':' :: fixedDigits 2 (time / 60000 % 60) ++
    ':' :: fixedDigits 2 (time / 1000 % 60) ++ '.' :: fixedDigits 3 (time % 1000) ++ ['Z']

theorem mem_toISOString (date : Date) : ∀ c ∈ toISOString date, c.isDigit = true ∨ c ∈ ['-', '+', 'T', ':', '.', 'Z'] := by
  have hyear : ∀ year : ℤ, ∀ c ∈ yearText year, c.isDigit = true ∨ c ∈ ['-', '+', 'T', ':', '.', 'Z'] := by
    intro year c hc
    unfold yearText at hc
    split_ifs at hc
    · rcases List.mem_cons.mp hc with rfl | hc
      · exact .inr (by decide)
      · exact .inl (isDigit_fixedDigits _ _ c hc)
    · rcases List.mem_cons.mp hc with rfl | hc
      · exact .inr (by decide)
      · exact .inl (isDigit_fixedDigits _ _ c hc)
    · exact .inl (isDigit_fixedDigits _ _ c hc)
  intro c hc
  simp only [toISOString, List.mem_append, List.mem_cons, List.not_mem_nil, or_false] at hc
  rcases hc with (((((((hc | rfl | hc) | rfl | hc) | rfl | hc) | rfl | hc) | rfl | hc) | rfl | hc) | rfl) <;>
    first
    | exact hyear _ c hc
    | exact .inl (isDigit_fixedDigits _ _ c hc)
    | exact .inr (by decide)

/-- The digits of the text as one number; its last thirteen digits are the fields after the year. -/
def isoTime (text : List Char) : ℤ :=
  let n := readDigits (text.filter Char.isDigit)
  let year : ℤ := (n / 10000000000000 : ℕ)
  let day : CivilDate :=
    {
      year := if text.head? = some '-' then -year else year
      month := n / 100000000000 % 100
      day := n / 1000000000 % 100
    }
  daysFromCivil day * 86400000 + (n / 10000000 % 100 * 3600000 + n / 100000 % 100 * 60000 + n / 1000 % 100 * 1000 + n % 1000 : ℕ)

/-- The time of a text as `toISOString` writes it. -/
def readIso (text : List Char) : Option Date :=
  if h : DateRange (isoTime text) then
    if toISOString ⟨isoTime text, h⟩ = text then some ⟨isoTime text, h⟩ else none
  else none

theorem yearText_head {year : ℤ} (rest : List Char) : ((yearText year ++ rest).head? = some '-') ↔ year < 0 := by
  unfold yearText
  split_ifs with hneg hbig
  · exact iff_of_true rfl hneg
  · exact iff_of_false (by simp) hneg
  · refine iff_of_false ?_ hneg
    rw [show fixedDigits 4 year.natAbs = Nat.digitChar (year.natAbs / 10 / 10 / 10 % 10) ::
      [Nat.digitChar (year.natAbs / 10 / 10 % 10), Nat.digitChar (year.natAbs / 10 % 10), Nat.digitChar (year.natAbs % 10)]
      from rfl, List.cons_append, List.head?_cons]
    intro h
    have hdigit := (digitChar_digit (year.natAbs / 10 / 10 / 10 % 10) (by omega)).1
    rw [Option.some.inj h] at hdigit
    exact absurd hdigit (by decide)

theorem yearText_digits (year : ℤ) (h : -999999 ≤ year ∧ year ≤ 999999) :
    ∃ width, (yearText year).filter Char.isDigit = fixedDigits width year.natAbs ∧ year.natAbs < 10 ^ width := by
  have hself : ∀ width, (fixedDigits width year.natAbs).filter Char.isDigit = fixedDigits width year.natAbs := fun width =>
    List.filter_eq_self.mpr (isDigit_fixedDigits width _)
  unfold yearText
  split_ifs with hneg hbig
  · exact ⟨6, by rw [List.filter_cons_of_neg (by decide), hself], by omega⟩
  · exact ⟨6, by rw [List.filter_cons_of_neg (by decide), hself], by omega⟩
  · exact ⟨4, hself 4, by omega⟩

theorem digits_toISOString (date : Date) :
    ∃ width, (civilFromDays (date.ms / 86400000)).year.natAbs < 10 ^ width ∧
      (toISOString date).filter Char.isDigit =
        fixedDigits width (civilFromDays (date.ms / 86400000)).year.natAbs ++
          (fixedDigits 2 (civilFromDays (date.ms / 86400000)).month ++
            (fixedDigits 2 (civilFromDays (date.ms / 86400000)).day ++
              (fixedDigits 2 ((date.ms % 86400000).toNat / 3600000) ++
                (fixedDigits 2 ((date.ms % 86400000).toNat / 60000 % 60) ++
                  (fixedDigits 2 ((date.ms % 86400000).toNat / 1000 % 60) ++
                    fixedDigits 3 ((date.ms % 86400000).toNat % 1000)))))) := by
  obtain ⟨hlow, hhigh⟩ := date.inRange
  obtain ⟨width, hdigits, hwidth⟩ := yearText_digits (civilFromDays (date.ms / 86400000)).year
    (civilFromDays_year (by omega) (by omega))
  refine ⟨width, hwidth, ?_⟩
  have hself : ∀ w n, (fixedDigits w n).filter Char.isDigit = fixedDigits w n := fun w n =>
    List.filter_eq_self.mpr (isDigit_fixedDigits w n)
  have hsign : ∀ (c : Char) (l : List Char), c.isDigit = false → (c :: l).filter Char.isDigit = l.filter Char.isDigit :=
    fun c l hc => List.filter_cons_of_neg (by simp [hc])
  simp only [toISOString, List.filter_append, hdigits, hself, hsign '-' _ rfl, hsign 'T' _ rfl, hsign ':' _ rfl,
    hsign '.' _ rfl, hsign 'Z' _ rfl, List.filter_nil, List.append_nil, List.append_assoc]

theorem fields_of_number {year month day hour minute second ms : ℕ} (hmonth : month < 100) (hday : day < 100)
    (hhour : hour < 100) (hminute : minute < 100) (hsecond : second < 100) (hms : ms < 1000) {n : ℕ}
    (hn : n = ((((((year * 100 + month) * 100 + day) * 100 + hour) * 100 + minute) * 100 + second) * 1000 + ms)) :
    n / 10000000000000 = year ∧ n / 100000000000 % 100 = month ∧ n / 1000000000 % 100 = day ∧
      n / 10000000 % 100 = hour ∧ n / 100000 % 100 = minute ∧ n / 1000 % 100 = second ∧ n % 1000 = ms := by
  refine ⟨?_, ?_, ?_, ?_, ?_, ?_, ?_⟩
  all_goals omega

/-- **A time is read back from its text.** -/
theorem readIso_toISOString (date : Date) : readIso (toISOString date) = some date := by
  obtain ⟨hlow, hhigh⟩ := date.inRange
  obtain ⟨width, hyear, hdigits⟩ := digits_toISOString date
  obtain ⟨hmonth, hmonth', hday, hday'⟩ := civilFromDays_bounds (date.ms / 86400000)
  have hhead : (toISOString date).head? = some '-' ↔ (civilFromDays (date.ms / 86400000)).year < 0 := by
    simp only [toISOString, List.append_assoc]
    exact yearText_head _
  have hread : ∀ {w n}, n < 10 ^ w → ∀ rest, readDigits (fixedDigits w n ++ rest) = n * 10 ^ rest.length + readDigits rest :=
    fun hn rest => by rw [readDigits_append, readDigits_fixedDigits hn]
  have hhour : (date.ms % 86400000).toNat / 3600000 < 100 := by omega
  have hminute : (date.ms % 86400000).toNat / 60000 % 60 < 100 := by omega
  have hsecond : (date.ms % 86400000).toNat / 1000 % 60 < 100 := by omega
  have hms : (date.ms % 86400000).toNat % 1000 < 1000 := by omega
  have hsigned : (if (toISOString date).head? = some '-' then -((civilFromDays (date.ms / 86400000)).year.natAbs : ℤ)
      else ((civilFromDays (date.ms / 86400000)).year.natAbs : ℤ)) = (civilFromDays (date.ms / 86400000)).year := by
    by_cases hneg : (civilFromDays (date.ms / 86400000)).year < 0
    · rw [if_pos (hhead.mpr hneg)]
      omega
    · rw [if_neg (mt hhead.mp hneg)]
      omega
  have htime : isoTime (toISOString date) = date.ms := by
    have hn : readDigits ((toISOString date).filter Char.isDigit) =
        (((((((civilFromDays (date.ms / 86400000)).year.natAbs * 100 + (civilFromDays (date.ms / 86400000)).month) * 100 +
          (civilFromDays (date.ms / 86400000)).day) * 100 + (date.ms % 86400000).toNat / 3600000) * 100 +
          (date.ms % 86400000).toNat / 60000 % 60) * 100 + (date.ms % 86400000).toNat / 1000 % 60) * 1000 +
          (date.ms % 86400000).toNat % 1000) := by
      rw [hdigits, hread hyear, hread (by omega), hread (by omega), hread hhour, hread hminute, hread hsecond,
        readDigits_fixedDigits hms]
      simp only [List.length_append, length_fixedDigits]
      ring
    obtain ⟨hY, hM, hD, hh, hm, hs, hlast⟩ :=
      fields_of_number (lt_of_le_of_lt hmonth' (by decide)) (lt_of_le_of_lt hday' (by decide)) hhour hminute hsecond hms hn
    clear hn hdigits
    simp only [isoTime, hY, hM, hD, hh, hm, hs, hlast, hsigned]
    rw [daysFromCivil_civilFromDays]
    clear hY hM hD hh hm hs hlast
    omega
  simp only [readIso, htime, dif_pos date.inRange, if_true]

end TeamInbox.Lib
