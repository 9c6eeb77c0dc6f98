/-
  The Gregorian calendar.

  * `isLeap`, `monthLength`: leap years by the 4/100/400 rule.
  * `Date`, `Date.next`: dates and the day after; `Date.after`: a number of days later.
  * `Date.ordinal`: the days from the beginning of year 0; `Date.ordinal_next`,
    `Date.ordinal_injective`: counting days is one to one.
  * `Date.eq_after_iff`: the date after some days is the one with that count.
  * `Digits`: a day of a cycle of 400 years, by centuries, cycles of 4 years, and years;
    `exists_digits`.
-/
import Mathlib.Logic.Function.Iterate
import Mathlib.Order.Monotone.Basic
import Mathlib.Tactic.SplitIfs

namespace Calendar

def isLeap (y : ℕ) : Bool := y % 4 = 0 ∧ y % 100 ≠ 0 ∨ y % 400 = 0

/-- The days of a month, from 1 to 12. -/
def monthLength (y m : ℕ) : ℕ :=
  if m = 2 then if isLeap y then 29 else 28
  else if m = 4 ∨ m = 6 ∨ m = 9 ∨ m = 11 then 30 else 31

/-- The days before a year. -/
def yearStart (y : ℕ) : ℕ := 365 * y + (y + 3) / 4 - (y + 99) / 100 + (y + 399) / 400

/-- The days of a year before a month. -/
def monthStart (y : ℕ) : ℕ → ℕ
  | 0 => 0
  | 1 => 0
  | m + 2 => monthStart y (m + 1) + monthLength y (m + 1)

def yearLength (y : ℕ) : ℕ := if isLeap y then 366 else 365

theorem yearLength_bounds (y : ℕ) : 365 ≤ yearLength y ∧ yearLength y ≤ 366 := by
  unfold yearLength
  split_ifs <;> decide

theorem isLeap_iff (y : ℕ) : isLeap y = true ↔ y % 4 = 0 ∧ y % 100 ≠ 0 ∨ y % 400 = 0 :=
  decide_eq_true_iff

theorem monthStart_succ {m : ℕ} (y : ℕ) (h : 1 ≤ m) :
    monthStart y (m + 1) = monthStart y m + monthLength y m := by
  obtain ⟨m, rfl⟩ := Nat.exists_eq_add_of_le' h
  rfl

theorem yearLength_eq (y : ℕ) : yearLength y = 365 + if isLeap y then 1 else 0 := by
  unfold yearLength
  split_ifs <;> rfl

/-- Of the multiples of 4 all are leap years, but those of 100 that are none of 400. -/
theorem leapDay (y : ℕ) : (if isLeap y then 1 else 0) + (if y % 100 = 0 then 1 else 0) =
    (if y % 4 = 0 then 1 else 0) + if y % 400 = 0 then 1 else 0 := by
  have hmod : (y % 400 = 0 → y % 100 = 0) ∧ (y % 100 = 0 → y % 4 = 0) := by omega
  unfold isLeap
  by_cases h400 : y % 400 = 0
  · simp [h400, hmod.1 h400, hmod.2 (hmod.1 h400)]
  by_cases h100 : y % 100 = 0
  · simp [h400, h100, hmod.2 h100]
  · simp [h400, h100]

theorem yearStart_succ (y : ℕ) : yearStart (y + 1) = yearStart y + yearLength y := by
  -- one more multiple of 4, 100 or 400
  have h4 : (y + 4) / 4 = (y + 3) / 4 + if y % 4 = 0 then 1 else 0 := by split_ifs <;> omega
  have h100 : (y + 100) / 100 = (y + 99) / 100 + if y % 100 = 0 then 1 else 0 := by
    split_ifs <;> omega
  have h400 : (y + 400) / 400 = (y + 399) / 400 + if y % 400 = 0 then 1 else 0 := by
    split_ifs <;> omega
  have hle : (y + 99) / 100 ≤ (y + 3) / 4 := by omega
  have hstart : yearStart (y + 1) =
      365 * (y + 1) + (y + 4) / 4 - (y + 100) / 100 + (y + 400) / 400 := rfl
  have hleap := leapDay y
  have hone : (if y % 100 = 0 then 1 else 0) ≤ 1 := by split_ifs <;> decide
  rw [hstart, h4, h100, h400, yearStart, yearLength_eq]
  generalize (y + 3) / 4 = a, (y + 99) / 100 = b, (y + 399) / 400 = c at hle ⊢
  generalize (if isLeap y then 1 else 0) = l, (if y % 4 = 0 then 1 else 0) = l4,
    (if y % 100 = 0 then 1 else 0) = l100, (if y % 400 = 0 then 1 else 0) = l400 at hleap hone ⊢
  omega

theorem monthStart_thirteen (y : ℕ) : monthStart y 13 = yearLength y := by
  cases h : isLeap y <;> simp [monthStart, monthLength, yearLength, h]

theorem monthStart_mono (y : ℕ) : Monotone (monthStart y) :=
  monotone_nat_of_le_succ fun m => by
    rcases m with _ | m
    · exact le_rfl
    · exact Nat.le_add_right _ _

theorem yearStart_mono : Monotone yearStart :=
  monotone_nat_of_le_succ fun y => by
    rw [yearStart_succ]
    exact Nat.le_add_right _ _

/-- The days before March. -/
theorem marchStart_eq (y : ℕ) :
    yearStart y + monthStart y 3 = 365 * y + y / 4 - y / 100 + y / 400 + 60 := by
  have hmarch : monthStart y 3 = 59 + if isLeap y then 1 else 0 := by
    cases h : isLeap y <;> simp [monthStart, monthLength, h]
  have h4 : (y + 3) / 4 + (if y % 4 = 0 then 1 else 0) = y / 4 + 1 := by split_ifs <;> omega
  have h100 : (y + 99) / 100 + (if y % 100 = 0 then 1 else 0) = y / 100 + 1 := by
    split_ifs <;> omega
  have h400 : (y + 399) / 400 + (if y % 400 = 0 then 1 else 0) = y / 400 + 1 := by
    split_ifs <;> omega
  have hle : (y + 99) / 100 ≤ (y + 3) / 4 ∧ y / 100 ≤ y / 4 := by omega
  have hleap := leapDay y
  rw [hmarch, yearStart]
  generalize (y + 3) / 4 = a, (y + 99) / 100 = b, (y + 399) / 400 = c, y / 4 = a', y / 100 = b',
    y / 400 = c' at h4 h100 h400 hle ⊢
  generalize (if isLeap y then 1 else 0) = l, (if y % 4 = 0 then 1 else 0) = l4,
    (if y % 100 = 0 then 1 else 0) = l100, (if y % 400 = 0 then 1 else 0) = l400
    at hleap h4 h100 h400 ⊢
  omega

/-! ## Cycles -/

/-- A day of a cycle of 400 years: day `r` of year `j` of a cycle `k` of 4 years, in century `c`.
    Only the last year of a cycle has a day 365. -/
structure Digits (n c k j r : ℕ) : Prop where
  sum : n = 36524 * c + 1461 * k + 365 * j + r
  century : c ≤ 3
  cycle : k ≤ 24
  year : j ≤ 3
  day : r ≤ 365
  long : r = 365 → j = 3
  last : r = 365 → k = 24 → c = 3

theorem exists_digits {n : ℕ} (h : n < 146097) : ∃ c k j r, Digits n c k j r := by
  obtain ⟨c, m, hn, hc, hm, hlast⟩ :
      ∃ c m, n = 36524 * c + m ∧ c ≤ 3 ∧ m ≤ 36524 ∧ (m = 36524 → c = 3) :=
    ⟨min (n / 36524) 3, n - 36524 * min (n / 36524) 3, by omega, by omega, by omega, by omega⟩
  obtain ⟨j, r, hr, hj, hle, hlong⟩ :
      ∃ j r, m % 1461 = 365 * j + r ∧ j ≤ 3 ∧ r ≤ 365 ∧ (r = 365 → j = 3) :=
    ⟨min (m % 1461 / 365) 3, m % 1461 - 365 * min (m % 1461 / 365) 3, by omega, by omega,
      by omega, by omega⟩
  exact ⟨c, m / 1461, j, r, by omega, hc, by omega, hj, hle, hlong, by omega⟩

namespace Digits

variable {n c k j r : ℕ} (h : Digits n c k j r)

include h

theorem century_eq : min (n / 36524) 3 = c := by
  obtain ⟨hsum, hc, hk, hj, hr, hlong, hlast⟩ := h
  omega

theorem div_cycle : (n - c * 36524) / 1461 = k ∧ (n - c * 36524) % 1461 = 365 * j + r := by
  obtain ⟨hsum, hc, hk, hj, hr, hlong, hlast⟩ := h
  omega

theorem year_eq : min ((365 * j + r) / 365) 3 = j := by
  obtain ⟨hsum, hc, hk, hj, hr, hlong, hlast⟩ := h
  omega

end Digits

/-- A valid date. -/
@[ext]
structure Date where
  year : ℕ
  month : ℕ
  day : ℕ
  one_le_month : 1 ≤ month
  month_le : month ≤ 12
  one_le_day : 1 ≤ day
  day_le : day ≤ monthLength year month

theorem one_le_monthLength (y m : ℕ) : 1 ≤ monthLength y m := by
  unfold monthLength
  split_ifs <;> decide

namespace Date

/-- The day after. -/
def next (d : Date) : Date :=
  if h : d.day < monthLength d.year d.month then
    { d with day := d.day + 1, one_le_day := Nat.le_add_left 1 _, day_le := h }
  else if h' : d.month < 12 then
    { year := d.year, month := d.month + 1, day := 1, one_le_month := Nat.le_add_left 1 _,
      month_le := h', one_le_day := le_rfl, day_le := one_le_monthLength _ _ }
  else
    { year := d.year + 1, month := 1, day := 1, one_le_month := le_rfl,
      month_le := by decide, one_le_day := le_rfl, day_le := one_le_monthLength _ _ }

/-- Some days later. -/
def after (d : Date) (n : ℕ) : Date := next^[n] d

def ymd (d : Date) : ℕ × ℕ × ℕ := (d.year, d.month, d.day)

/-- The number of a day, with 1 for the first one of year 0. -/
def ordinal (d : Date) : ℕ := yearStart d.year + monthStart d.year d.month + d.day

theorem after_succ (d : Date) (n : ℕ) : d.after (n + 1) = (d.after n).next :=
  Function.iterate_succ_apply' _ _ _

theorem ordinal_next (d : Date) : d.next.ordinal = d.ordinal + 1 := by
  have hday := d.day_le
  unfold next
  split_ifs with h h'
  · rfl
  · have hmonth := monthStart_succ d.year d.one_le_month
    show yearStart d.year + monthStart d.year (d.month + 1) + 1 = _
    unfold ordinal
    omega
  · -- the last day of December
    have htwelve : d.month = 12 := le_antisymm d.month_le (not_lt.1 h')
    have hmonth := monthStart_succ d.year d.one_le_month
    have hyear := yearStart_succ d.year
    rw [← monthStart_thirteen] at hyear
    rw [htwelve] at hmonth h hday
    change monthStart d.year 13 = _ at hmonth
    show yearStart (d.year + 1) + 0 + 1 = _
    unfold ordinal
    rw [htwelve]
    omega

theorem ordinal_after (d : Date) (n : ℕ) : (d.after n).ordinal = d.ordinal + n := by
  induction n with
  | zero => rfl
  | succ n ih => rw [after_succ, ordinal_next, ih, Nat.add_assoc]

variable {d d' : Date}

theorem ordinal_le_monthStart (d : Date) :
    d.ordinal ≤ yearStart d.year + monthStart d.year (d.month + 1) := by
  rw [monthStart_succ _ d.one_le_month, ← Nat.add_assoc]
  exact Nat.add_le_add_left d.day_le _

theorem ordinal_le_yearStart (d : Date) : d.ordinal ≤ yearStart (d.year + 1) := by
  refine (ordinal_le_monthStart d).trans ?_
  rw [yearStart_succ, ← monthStart_thirteen]
  exact Nat.add_le_add_left (monthStart_mono _ (Nat.succ_le_succ d.month_le)) _

theorem monthStart_lt_ordinal (d : Date) :
    yearStart d.year + monthStart d.year d.month < d.ordinal :=
  Nat.lt_add_of_pos_right d.one_le_day

theorem year_le_of_ordinal_le (h : d.ordinal ≤ d'.ordinal) : d.year ≤ d'.year := by
  by_contra hlt
  have hstart : yearStart (d'.year + 1) ≤ yearStart d.year := yearStart_mono (not_le.1 hlt)
  have hd := monthStart_lt_ordinal d
  have hd' := ordinal_le_yearStart d'
  omega

theorem month_le_of_ordinal_le (hyear : d.year = d'.year) (h : d.ordinal ≤ d'.ordinal) :
    d.month ≤ d'.month := by
  by_contra hlt
  have hstart : monthStart d'.year (d'.month + 1) ≤ monthStart d'.year d.month :=
    monthStart_mono _ (not_le.1 hlt)
  have hd := monthStart_lt_ordinal d
  have hd' := ordinal_le_monthStart d'
  rw [hyear] at hd
  omega

theorem ordinal_injective : Function.Injective ordinal := by
  intro d d' h
  have hyear : d.year = d'.year :=
    le_antisymm (year_le_of_ordinal_le h.le) (year_le_of_ordinal_le h.ge)
  have hmonth : d.month = d'.month :=
    le_antisymm (month_le_of_ordinal_le hyear h.le) (month_le_of_ordinal_le hyear.symm h.ge)
  refine Date.ext hyear hmonth ?_
  unfold ordinal at h
  rw [hyear, hmonth] at h
  exact Nat.add_left_cancel h

theorem eq_after_iff {d₀ : Date} {n : ℕ} : d = d₀.after n ↔ d.ordinal = d₀.ordinal + n := by
  rw [← ordinal_after]
  exact ordinal_injective.eq_iff.symm

end Date

end Calendar
