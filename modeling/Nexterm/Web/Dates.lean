/-
  The three conversions of days since 1970-01-01 into a date (`pane.rs`, `web/access_log.rs` and
  `status_bar.rs`).

  * `Pane.daysToYmd`, `daysToYmd`, `StatusBar.daysToYmd`: the names of log files, the access log,
    the status bar.
  * `ofDays`: the date, by the calendar.
  * `daysToYmd_eq`, `Pane.daysToYmd_eq`: the first two, with years of 32 bits in the first one.
  * `StatusBar.Exact`: the dates on which the cycles counted from 1970 are those of the calendar.
  * `daysToYmd_iff`: exactly on these the three agree with the calendar.
-/
import Mathlib.Tactic.IntervalCases
import Nexterm.Lib.Calendar
import Nexterm.Web.AccessLog

namespace Nexterm.Web

open Calendar

/-- Convert days since the Unix epoch into a (year, month, day) tuple (Gregorian). -/
def Pane.daysToYmd (days : ℕ) : ℕ × ℕ × ℕ :=
  let z : ℤ := Int.bmod days (2 ^ 64) + 719468
  let era := Int.tdiv (if 0 ≤ z then z else z - 146096) 146097
  let doe := (z - era * 146097).toNat
  let yoe := (doe - doe / 1460 + doe / 36524 - doe / 146096) / 365
  let y := (yoe : ℤ) + era * 400
  let doy := doe - (365 * yoe + yoe / 4 - yoe / 100)
  let mp := (5 * doy + 2) / 153
  let d := doy - (153 * mp + 2) / 5 + 1
  let m := if mp < 10 then mp + 3 else mp - 9
  let y := if m ≤ 2 then y + 1 else y
  ((y % 2 ^ 32).toNat, m, d)

namespace StatusBar

/-- The month of a day, and the day of the month; the loop stops in the month of the day. -/
def monthOf : List ℕ → ℕ → ℕ → ℕ × ℕ
  | [], month, days => (month, days)
  | md :: monthDays, month, days =>
    if days < md then (month, days) else monthOf monthDays (month + 1) (days - md)

/-- Converts an epoch day count (1970-01-01 = 0) to `(year, month, day)`. -/
def daysToYmd (days : ℕ) : ℕ × ℕ × ℕ :=
  -- a 400-year cycle is 146097 days
  let years400 := days / 146097
  let days := days % 146097
  let years100 := min (days / 36524) 3
  let days := days - years100 * 36524
  let years4 := days / 1461
  let days := days % 1461
  let years1 := min (days / 365) 3
  let days := days - years1 * 365
  let year := years400 * 400 + years100 * 100 + years4 * 4 + years1 + 1970
  let leap : Bool := year % 4 = 0 ∧ ¬year % 100 = 0 ∨ year % 400 = 0
  let monthDays := [31, if leap then 29 else 28, 31, 30, 31, 30, 31, 31, 30, 31, 30, 31]
  let (month, days) := monthOf monthDays 1 days
  (year, month, days + 1)

end StatusBar

theorem one_le_january : 1 ≤ 1 := by decide
theorem january_le : 1 ≤ 12 := by decide
theorem first_le_monthLength : 1 ≤ monthLength 1970 1 := by decide

/-- The first day. -/
def epoch : Date := ⟨1970, 1, 1, one_le_january, january_le, one_le_january, first_le_monthLength⟩

/-- The date of a day since 1970-01-01, counted in the calendar. -/
def ofDays (days : ℕ) : Date := epoch.after days

theorem ordinal_ofDays (days : ℕ) : (ofDays days).ordinal = 719529 + days :=
  epoch.ordinal_after days

/-! ## From March -/

/-- A year from March to February, of a cycle, and the day of it. -/
theorem marchYear {n c k j r : ℕ} (h : Digits n c k j r) :
    (n - n / 1460 + n / 36524 - n / 146096) / 365 = 100 * c + 4 * k + j := by
  obtain ⟨rfl, hc, hk, hj, hr, hlong, hlast⟩ := h
  by_cases hmax : k = 24 ∧ r = 365
  · -- the last day of a cycle
    obtain ⟨rfl, rfl⟩ := hmax
    rw [hlast rfl rfl, hlong rfl]
  · have hcentury : (36524 * c + 1461 * k + 365 * j + r) / 36524 = c :=
      Nat.div_eq_of_lt_le (by omega) (by omega)
    have hcycle : (36524 * c + 1461 * k + 365 * j + r) / 146096 = 0 := Nat.div_eq_of_lt (by omega)
    rw [hcentury, hcycle]
    omega

/-- The months from March have 153 days in five. -/
theorem monthStart_march (y : ℕ) {mp : ℕ} (h : mp ≤ 10) :
    monthStart y (mp + 3) = monthStart y 3 + (153 * mp + 2) / 5 := by
  interval_cases mp <;> simp [monthStart, monthLength]

theorem marchMonth {y r : ℕ} (hr : r ≤ 365) (hleap : r = 365 → isLeap (y + 1) = true) :
    let mp := (5 * r + 2) / 153
    let m := if mp < 10 then mp + 3 else mp - 9
    ∃ date : Date, date.ymd = (if m ≤ 2 then y + 1 else y, m, r - (153 * mp + 2) / 5 + 1) ∧
      date.ordinal = yearStart y + monthStart y 3 + r + 1 := by
  intro mp m
  have hmp : 153 * mp ≤ 5 * r + 2 ∧ 5 * r + 2 < 153 * (mp + 1) :=
    ⟨Nat.mul_div_le _ _, Nat.lt_mul_div_succ _ (by decide)⟩
  have hstart : (153 * mp + 2) / 5 ≤ r ∧ r < (153 * (mp + 1) + 2) / 5 := by omega
  by_cases hten : mp < 10
  · -- March to December
    have hm : m = mp + 3 := if_pos hten
    have hle : monthStart y m = monthStart y 3 + (153 * mp + 2) / 5 := by
      rw [hm, monthStart_march y (by omega)]
    have hnext : monthStart y m + monthLength y m = monthStart y 3 + (153 * (mp + 1) + 2) / 5 := by
      rw [← monthStart_succ y (by omega), hm, ← monthStart_march y (by omega)]
    refine ⟨⟨y, m, r - (153 * mp + 2) / 5 + 1, by omega, by omega, by omega, by omega⟩, ?_, ?_⟩
    · rw [if_neg (by omega)]
      rfl
    · show yearStart y + monthStart y m + (r - (153 * mp + 2) / 5 + 1) = _
      omega
  · -- January and February of the next year
    have hlast : monthStart y 13 = monthStart y 3 + 306 := monthStart_march y (le_refl 10)
    have hyear : yearStart (y + 1) = yearStart y + (monthStart y 3 + 306) := by
      rw [yearStart_succ, ← monthStart_thirteen, hlast]
    have hm : m = mp - 9 := if_neg hten
    obtain hmp | hmp : mp = 10 ∨ mp = 11 := by omega
    · have hone : m = 1 := by omega
      rw [hone, hmp]
      refine ⟨⟨y + 1, 1, r - 306 + 1, by decide, by decide, by omega, ?_⟩, rfl, ?_⟩
      · simp [monthLength]
        omega
      · show yearStart (y + 1) + 0 + (r - 306 + 1) = _
        omega
    · have htwo : m = 2 := by omega
      rw [htwo, hmp]
      refine ⟨⟨y + 1, 2, r - 337 + 1, by decide, by decide, by omega, ?_⟩, rfl, ?_⟩
      · rw [monthLength, if_pos rfl]
        split_ifs with h
        · omega
        · have := mt hleap h
          omega
      · show yearStart (y + 1) + 31 + (r - 337 + 1) = _
        omega

/-- A day counted from March of year 0, by cycles. -/
theorem exists_marchDate {n c k j r : ℕ} (h : Digits n c k j r) (era : ℕ) :
    let mp := (5 * r + 2) / 153
    let m := if mp < 10 then mp + 3 else mp - 9
    let y := 100 * c + 4 * k + j + era * 400
    ∃ date : Date, date.ymd = (if m ≤ 2 then y + 1 else y, m, r - (153 * mp + 2) / 5 + 1) ∧
      date.ordinal = 146097 * era + n + 61 := by
  intro mp m y
  obtain ⟨hsum, hc, hk, hj, hr, hlong, hlast⟩ := h
  have hleap : r = 365 → isLeap (y + 1) = true := fun hmax => by
    have hj3 := hlong hmax
    have hc3 := hlast hmax
    rw [isLeap_iff]
    omega
  obtain ⟨date, hymd, hord⟩ := marchMonth hr hleap
  refine ⟨date, hymd, ?_⟩
  have h4 : y / 4 = 100 * era + 25 * c + k := by omega
  have h100 : y / 100 = 4 * era + c := by omega
  have h400 : y / 400 = era := by omega
  rw [hord, marchStart_eq, h4, h100, h400]
  omega

theorem doy_eq {n c k j r : ℕ} (h : Digits n c k j r) :
    n - (365 * (100 * c + 4 * k + j) + (100 * c + 4 * k + j) / 4 - (100 * c + 4 * k + j) / 100) =
      r := by
  obtain ⟨hsum, hc, hk, hj, hr, hlong, hlast⟩ := h
  have h4 : (100 * c + 4 * k + j) / 4 = 25 * c + k := by omega
  have h100 : (100 * c + 4 * k + j) / 100 = c := by omega
  rw [h4, h100]
  omega

/-- The access log has the date. -/
theorem daysToYmd_eq (days : ℕ) : daysToYmd days = (ofDays days).ymd := by
  obtain ⟨c, k, j, r, h⟩ := exists_digits (Nat.mod_lt (days + 719468) (by decide : 0 < 146097))
  obtain ⟨date, hymd, hord⟩ := exists_marchDate h ((days + 719468) / 146097)
  have hdate : date = ofDays days := by
    refine Date.eq_after_iff.2 ?_
    show date.ordinal = 719529 + days
    rw [hord, Nat.div_add_mod]
    omega
  rw [← hdate, hymd, daysToYmd]
  simp only [marchYear h, doy_eq h]

/-! ## Log files -/

/-- Years of 32 bits. -/
theorem Pane.year_lt (days : ℕ) : (Pane.daysToYmd days).1 < 2 ^ 32 := by
  simp only [Pane.daysToYmd]
  omega

/-- The names of log files have the date, with a year of 32 bits. -/
theorem Pane.daysToYmd_eq {days : ℕ} (h : days + 719468 < 2 ^ 63) :
    Pane.daysToYmd days = ((Web.daysToYmd days).1 % 2 ^ 32, (Web.daysToYmd days).2) := by
  have hz : Int.bmod days (2 ^ 64) + 719468 = (days + 719468 : ℕ) := by
    rw [Int.bmod_eq_of_le (by omega) (by omega), Int.natCast_add]
    rfl
  simp only [Pane.daysToYmd, Web.daysToYmd, hz]
  generalize days + 719468 = z
  have hera : Int.tdiv (z : ℤ) 146097 = (z / 146097 : ℕ) := (Int.ofNat_tdiv z 146097).symm
  have hdoe : ((z : ℤ) - (z / 146097 : ℕ) * 146097).toNat = z % 146097 := by omega
  simp only [if_pos (Int.natCast_nonneg z), hera, hdoe]
  generalize (z % 146097 - z % 146097 / 1460 + z % 146097 / 36524 - z % 146097 / 146096) / 365 = yoe
  refine Prod.ext ?_ rfl
  dsimp only
  split_ifs <;> omega

/-! ## The status bar -/

namespace StatusBar

theorem monthOf_spec {y m month day : ℕ} (n : ℕ) {days : ℕ} (hm : 1 ≤ m)
    (h : monthOf ((List.range' m n).map (monthLength y)) m days = (month, day)) :
    m ≤ month ∧ monthStart y month + day = monthStart y m + days ∧
      (monthStart y m + days < monthStart y (m + n) →
        month < m + n ∧ day < monthLength y month) := by
  induction n generalizing m days with
  | zero =>
    obtain ⟨rfl, rfl⟩ := Prod.mk.inj h
    exact ⟨le_rfl, rfl, fun hlt => absurd hlt (Nat.not_lt.2 (Nat.le_add_right _ _))⟩
  | succ n ih =>
    rw [List.range'_succ, List.map_cons, monthOf] at h
    split_ifs at h with hlt
    · obtain ⟨rfl, rfl⟩ := Prod.mk.inj h
      exact ⟨le_rfl, rfl, fun _ => ⟨by omega, hlt⟩⟩
    · obtain ⟨hle, hsum, hin⟩ := ih (Nat.le_add_left 1 m) h
      rw [monthStart_succ y hm] at hsum hin
      have hcomm : m + 1 + n = m + (n + 1) := Nat.add_right_comm m 1 n
      rw [hcomm] at hin
      refine ⟨by omega, by omega, fun hdays => hin (by omega)⟩

theorem monthDays_eq (y : ℕ) :
    [31, if decide (y % 4 = 0 ∧ ¬y % 100 = 0 ∨ y % 400 = 0) then 29 else 28, 31, 30, 31, 30, 31, 31,
      30, 31, 30, 31] = (List.range' 1 12).map (monthLength y) := by
  simp [List.range', monthLength, isLeap]

/-- The year, and the day of the year. -/
theorem daysToYmd_eq {days c k j r : ℕ} (h : Digits (days % 146097) c k j r) :
    ∃ month day,
      daysToYmd days = (1970 + days / 146097 * 400 + 100 * c + 4 * k + j, month, day + 1) ∧
      monthOf ((List.range' 1 12).map (monthLength
        (1970 + days / 146097 * 400 + 100 * c + 4 * k + j))) 1 r = (month, day) := by
  have hyear (e : ℕ) : e * 400 + c * 100 + k * 4 + j + 1970 =
      1970 + e * 400 + 100 * c + 4 * k + j := by omega
  have hday : 365 * j + r - j * 365 = r := by rw [Nat.mul_comm, Nat.add_sub_cancel_left]
  rw [daysToYmd]
  generalize days % 146097 = n, days / 146097 = e at h ⊢
  rw [h.century_eq, h.div_cycle.1, h.div_cycle.2, h.year_eq, hday, hyear, monthDays_eq]
  generalize 1970 + e * 400 + 100 * c + 4 * k + j = y
  rcases hmonth : monthOf ((List.range' 1 12).map (monthLength y)) 1 r with ⟨month, day⟩
  exact ⟨month, day, rfl, rfl⟩

/-- The dates whose year begins on the same day in both ways of counting, up to the leap day. -/
def Exact (date : Date) : Prop :=
  date.year % 4 ≠ 1 ∧ ((date.year - 1970) % 400 < 100 ∨ 31 ≤ (date.year - 1970) % 100) ∧
    ¬(isLeap date.year = true ∧ date.month = 12 ∧ date.day = 31)

instance (date : Date) : Decidable (Exact date) :=
  inferInstanceAs (Decidable (_ ∧ _ ∧ ¬_))

/-- The cycles counted from 1970 against the calendar. -/
theorem yearStart_cycles {e c k j : ℕ} (hc : c ≤ 3) (hk : k ≤ 24) (hj : j ≤ 3) :
    yearStart (1970 + e * 400 + 100 * c + 4 * k + j) =
      719528 + 146097 * e + 36524 * c + 1461 * k + 365 * j +
        ((if j = 3 then 1 else 0) + if 1 ≤ c ∧ 4 * k + j < 31 then 1 else 0) := by
  have h4 : (1970 + e * 400 + 100 * c + 4 * k + j + 3) / 4 =
      493 + 100 * e + 25 * c + k + (j + 1) / 4 := by
    rw [← Nat.mul_add_div (by decide : 0 < 4)]
    exact congrArg (· / 4) (by omega)
  obtain ⟨x, hx⟩ : ∃ x, x = 4 * k + j := ⟨_, rfl⟩
  have h100 : (1970 + e * 400 + 100 * c + 4 * k + j + 99) / 100 =
      20 + 4 * e + c + (x + 69) / 100 := by
    rw [← Nat.mul_add_div (by decide : 0 < 100)]
    exact congrArg (· / 100) (by omega)
  have h400 : (1970 + e * 400 + 100 * c + 4 * k + j + 399) / 400 =
      5 + e + (100 * c + x + 369) / 400 := by
    rw [← Nat.mul_add_div (by decide : 0 < 400)]
    exact congrArg (· / 400) (by omega)
  have hj3 : (j + 1) / 4 = if j = 3 then 1 else 0 := by split_ifs <;> omega
  have h31 : (x + 69) / 100 = if x < 31 then 0 else 1 := by split_ifs <;> omega
  have hfirst : (100 * c + x + 369) / 400 =
      (if x < 31 then 0 else 1) + if 1 ≤ c ∧ x < 31 then 1 else 0 := by
    split_ifs <;> omega
  have hone : (if x < 31 then 0 else 1) ≤ 1 := by split_ifs <;> decide
  rw [yearStart, h4, h100, h400, hj3, h31, hfirst, ← hx]
  generalize (if x < 31 then 0 else 1) = l at hone ⊢
  generalize (if 1 ≤ c ∧ x < 31 then 1 else 0) = l', (if j = 3 then 1 else 0) = l''
  clear h4 h100 h400 hj3 h31 hfirst
  omega

/-- The years that begin on the same day. -/
theorem year_iff {y e c k j : ℕ} (hc : c ≤ 3) (hk : k ≤ 24) (hj : j ≤ 3)
    (hy : y = 1970 + e * 400 + 100 * c + 4 * k + j) :
    (y % 4 ≠ 1 ∧ ((y - 1970) % 400 < 100 ∨ 31 ≤ (y - 1970) % 100)) ↔
      j ≠ 3 ∧ ¬(1 ≤ c ∧ 4 * k + j < 31) := by
  have hsub : y - 1970 = 4 * k + j + 100 * c + 400 * e := by omega
  have h4 : y % 4 = (2 + j) % 4 := by omega
  have h400 : (y - 1970) % 400 = 4 * k + j + 100 * c := by
    rw [hsub, Nat.add_mul_mod_self_left, Nat.mod_eq_of_lt (by omega)]
  have h100 : (y - 1970) % 100 = 4 * k + j := by
    rw [← Nat.mod_mod_of_dvd _ (Nat.dvd_mul_left 100 4), h400, Nat.add_mul_mod_self_left,
      Nat.mod_eq_of_lt (by omega)]
  rw [h4, h400, h100]
  clear hsub h4 h400 h100
  omega

theorem december (y : ℕ) : monthStart y 12 + 31 = yearLength y := by
  rw [← monthStart_thirteen]
  rfl

/-- Only a leap year has a day 365, in December. -/
theorem lastDay {date : Date} (h : monthStart date.year date.month + date.day = 366) :
    isLeap date.year = true ∧ date.month = 12 ∧ date.day = 31 := by
  have hday := date.day_le
  have hdec := december date.year
  have hlen := yearLength_bounds date.year
  have htwelve : date.month = 12 := by
    by_contra hne
    have hmonth := monthStart_succ date.year date.one_le_month
    have hmono : monthStart date.year (date.month + 1) ≤ monthStart date.year 12 :=
      monthStart_mono _ (lt_of_le_of_ne date.month_le hne)
    omega
  rw [htwelve] at h hday
  change date.day ≤ 31 at hday
  refine ⟨?_, htwelve, by omega⟩
  by_contra hleap
  rw [yearLength, if_neg hleap] at hdec
  omega

variable {days : ℕ}

theorem ordinal_eq (days : ℕ) : yearStart (ofDays days).year +
    monthStart (ofDays days).year (ofDays days).month + (ofDays days).day = 719529 + days :=
  ordinal_ofDays days

theorem exact_of_eq (h : daysToYmd days = (ofDays days).ymd) : Exact (ofDays days) := by
  have hord := ordinal_eq days
  generalize ofDays days = date at h hord
  obtain ⟨c, k, j, r, hdigits⟩ := exists_digits (Nat.mod_lt days (by decide : 0 < 146097))
  obtain ⟨month, day, heq, hmonth⟩ := daysToYmd_eq hdigits
  rw [h] at heq
  have hy : date.year = 1970 + days / 146097 * 400 + 100 * c + 4 * k + j := congrArg Prod.fst heq
  have hm : date.month = month := congrArg (fun p => p.2.1) heq
  have hd : date.day = day + 1 := congrArg (fun p => p.2.2) heq
  have hdoy := (monthOf_spec 12 le_rfl hmonth).2.1
  rw [← hy, ← hm] at hdoy
  change _ = 0 + r at hdoy
  obtain ⟨hsum, hc, hk, hj, hr, hlong, -⟩ := hdigits
  have hstart := yearStart_cycles (e := days / 146097) hc hk hj
  rw [← hy] at hstart
  have hdays := Nat.div_add_mod days 146097
  -- the year begins on its day
  have hf : j ≠ 3 ∧ ¬(1 ≤ c ∧ 4 * k + j < 31) := by
    split_ifs at hstart with h3 h31 h31
    · omega
    · omega
    · omega
    · exact ⟨h3, h31⟩
  obtain ⟨hmod, hcentury⟩ := (year_iff hc hk hj hy).2 hf
  refine ⟨hmod, hcentury, ?_⟩
  rintro ⟨hleap, hdec, hlast⟩
  have hlen := december date.year
  rw [yearLength, if_pos hleap, ← hdec] at hlen
  exact hf.1 (hlong (by omega))

theorem le_year (days : ℕ) : 1970 ≤ (ofDays days).year :=
  Date.year_le_of_ordinal_le (d := epoch) (by
    rw [ordinal_ofDays]
    exact Nat.le_add_right 719529 days)

theorem eq_of_exact (h : Exact (ofDays days)) : daysToYmd days = (ofDays days).ymd := by
  have hord := ordinal_eq days
  have hge := le_year days
  generalize ofDays days = date at h hord hge
  obtain ⟨hmod, hcentury, hlast⟩ := h
  obtain ⟨e, c, k, j, hc, hk, hj, hy⟩ : ∃ e c k j, c ≤ 3 ∧ k ≤ 24 ∧ j ≤ 3 ∧
      date.year = 1970 + e * 400 + 100 * c + 4 * k + j :=
    ⟨(date.year - 1970) / 400, (date.year - 1970) % 400 / 100, (date.year - 1970) % 100 / 4,
      (date.year - 1970) % 4, by omega, by omega, by omega, by omega⟩
  obtain ⟨hj3, h31⟩ := (year_iff hc hk hj hy).1 ⟨hmod, hcentury⟩
  have hstart := yearStart_cycles (e := e) hc hk hj
  rw [← hy, if_neg hj3, if_neg h31] at hstart
  -- the day of the year
  obtain ⟨r, hr⟩ : ∃ r, monthStart date.year date.month + date.day = r + 1 :=
    Nat.exists_eq_succ_of_ne_zero (Nat.ne_of_gt (Nat.add_pos_right _ date.one_le_day))
  have hshort : r < 365 := by
    have hle := date.ordinal_le_yearStart
    change yearStart date.year + monthStart date.year date.month + date.day ≤ _ at hle
    have hlen := yearLength_bounds date.year
    rw [yearStart_succ] at hle
    have hne : r ≠ 365 := fun h => hlast (lastDay (by omega))
    omega
  have hdiv : days / 146097 = e ∧ days % 146097 = 36524 * c + 1461 * k + 365 * j + r := by omega
  have hdigits : Digits (days % 146097) c k j r :=
    ⟨hdiv.2, hc, hk, hj, by omega, by omega, by omega⟩
  obtain ⟨month, day, heq, hmonth⟩ := daysToYmd_eq hdigits
  rw [heq, hdiv.1, ← hy]
  rw [hdiv.1, ← hy] at hmonth
  obtain ⟨hle, hsum, hin⟩ := monthOf_spec 12 le_rfl hmonth
  change _ = 0 + r at hsum
  have hyear : 0 + r < monthStart date.year 13 := by
    have hlen := yearLength_bounds date.year
    rw [monthStart_thirteen]
    omega
  obtain ⟨hmonth12, hday⟩ := hin hyear
  have hdate : date = ⟨date.year, month, day + 1, hle, by omega, by omega, hday⟩ := by
    apply Date.ordinal_injective
    show yearStart date.year + monthStart date.year date.month + date.day =
      yearStart date.year + monthStart date.year month + (day + 1)
    omega
  exact (congrArg Date.ymd hdate).symm

end StatusBar

/-! ## All three -/

/-- The three conversions have the date. -/
def DatesAgree (days : ℕ) : Prop :=
  Pane.daysToYmd days = (ofDays days).ymd ∧ daysToYmd days = (ofDays days).ymd ∧
    StatusBar.daysToYmd days = (ofDays days).ymd

/-- A year of 32 bits is not far away. -/
theorem days_lt {days : ℕ} (h : (ofDays days).year < 2 ^ 32) : days + 719468 < 2 ^ 63 := by
  have hle := (ofDays days).ordinal_le_yearStart.trans (yearStart_mono h)
  have hmax : yearStart (2 ^ 32) = 1568704592610 := rfl
  rw [ordinal_ofDays, hmax] at hle
  omega

/-- **The three conversions agree with the calendar** exactly on these dates. -/
theorem datesAgree_iff (days : ℕ) :
    DatesAgree days ↔ (ofDays days).year < 2 ^ 32 ∧ StatusBar.Exact (ofDays days) := by
  constructor
  · rintro ⟨hpane, -, hbar⟩
    have hyear := Pane.year_lt days
    rw [hpane] at hyear
    exact ⟨hyear, StatusBar.exact_of_eq hbar⟩
  · rintro ⟨hyear, hexact⟩
    refine ⟨?_, daysToYmd_eq days, StatusBar.eq_of_exact hexact⟩
    have hmod : (ofDays days).year % 2 ^ 32 = (ofDays days).year := Nat.mod_eq_of_lt hyear
    rw [Pane.daysToYmd_eq (days_lt hyear), daysToYmd_eq]
    exact Prod.ext hmod rfl

/-- The last day of 2025 is a day of a thirteenth month. -/
theorem thirteenthMonth : daysToYmd 20453 = (2025, 12, 31) ∧
    StatusBar.daysToYmd 20453 = (2025, 13, 1) ∧ ¬DatesAgree 20453 := by
  have hlog : daysToYmd 20453 = (2025, 12, 31) := by decide
  have hbar : StatusBar.daysToYmd 20453 = (2025, 13, 1) := by decide
  refine ⟨hlog, hbar, fun h => ?_⟩
  have heq := h.2.1.trans h.2.2.symm
  rw [hlog, hbar] at heq
  exact absurd heq (by decide)

end Nexterm.Web
