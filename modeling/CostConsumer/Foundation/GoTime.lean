import CostConsumer.Foundation.Calendar
import Mathlib.Algebra.Order.Field.Basic
import Mathlib.Algebra.Order.Field.Rat
set_option autoImplicit false

/-!
The parts of Go's `time` package the program uses, on UTC instants. An instant
is a number of nanoseconds since the zero time, 1 January of year 1; durations
are 64-bit nanosecond counts.
-/

namespace CostConsumer.Foundation.GoTime
open Calendar

def nanosPerSecond : Int := 1000000000
def nanosPerHour : Int := 3600000000000
def nanosPerDay : Int := 86400000000000

def utcDay (t : Int) : Int := t/nanosPerDay

def year (t : Int) : Int := yearOf (utcDay t)
def month (t : Int) : Int := monthOf (utcDay t)
def day (t : Int) : Int := dayOf (utcDay t)
def hour (t : Int) : Int := t%nanosPerDay/nanosPerHour
def minute (t : Int) : Int := t%nanosPerHour/60000000000

def weekday (t : Int) : Int := (utcDay t + 1)%7

/-- `time.Date` at midnight UTC, with its normalization of months and days. -/
def date (y m d : Int) : Int := dateDays y m d * nanosPerDay

def addDate (t : Int) (years months days : Int) : Int :=
  dateDays (year t + years) (month t + months) (day t + days) * nanosPerDay + t%nanosPerDay

def maxDuration : Int := 2^63-1
def minDuration : Int := -2^63

def sub (t u : Int) : Int := max minDuration (min maxDuration (t-u))

/-- The result of an operation on durations or other 64-bit numbers. -/
def wrap (n : Int) : Int := n.bmod 18446744073709551616

/-- `time.Duration` of a float, which drops the fraction. Out of range it is the smallest
duration, as on amd64. -/
def duration (q : Rat) : Int :=
  let n := q.num.tdiv q.den
  if minDuration ≤ n ∧ n ≤ maxDuration then n else minDuration

def seconds (d : Int) : Rat := d/nanosPerSecond

theorem wrap_bounds (n : Int) : minDuration ≤ wrap n ∧ wrap n ≤ maxDuration := by
  have h₁ := @Int.le_bmod n 18446744073709551616 (by decide)
  have h₂ := @Int.bmod_lt n 18446744073709551616 (by decide)
  unfold wrap minDuration maxDuration
  omega

theorem wrap_of_bounds {n : Int} (h₁ : minDuration ≤ n) (h₂ : n ≤ maxDuration) : wrap n = n := by
  unfold minDuration at h₁
  unfold maxDuration at h₂
  exact Int.bmod_eq_of_le (by omega) (by omega)

theorem wrap_wrap_add (m n : Int) : wrap (wrap m + n) = wrap (m + n) := Int.bmod_add_bmod

theorem wrap_eq_or_neg {n : Int} (h₁ : 0 < n) (h₂ : n ≤ 2*maxDuration+1) : wrap n = n ∨ wrap n < 0 := by
  unfold wrap maxDuration at *
  rw [Int.bmod_def]
  omega

theorem wrap_neg_duration_nonpos {q : Rat} (h : 0 ≤ q) : wrap (-duration q) ≤ 0 := by
  have hpos : 0 ≤ q.num.tdiv q.den := Int.tdiv_nonneg (Rat.num_nonneg.mpr h) (Int.natCast_nonneg _)
  unfold duration
  dsimp only
  split
  · rename_i hr
    rw [wrap_of_bounds]
    · omega
    · unfold minDuration maxDuration at *
      omega
    · unfold maxDuration
      omega
  · decide

theorem sub_of_le {t u : Int} (h₁ : u ≤ t) (h₂ : t-u ≤ maxDuration) : sub t u = t-u := by
  simp only [sub,minDuration] at *
  omega

theorem sub_le_of_le {t u : Int} (h : u ≤ t) : sub t u ≤ t-u := by
  simp only [sub,minDuration]
  omega

theorem sub_eq_iff {t u : Int} (h : u ≤ t) : sub t u = t-u ↔ t-u ≤ maxDuration := by
  refine ⟨fun heq => ?_,sub_of_le h⟩
  simp only [sub,minDuration] at heq
  omega

theorem seconds_sub (t u : Int) : seconds (t-u) = seconds t - seconds u := by
  simp [seconds,sub_div]

@[simp] theorem seconds_le_iff {t u : Int} : seconds t ≤ seconds u ↔ t ≤ u := by
  rw [seconds,seconds,div_le_div_iff_of_pos_right (by decide),Int.cast_le]

@[simp] theorem seconds_inj {t u : Int} : seconds t = seconds u ↔ t = u := by
  rw [le_antisymm_iff,seconds_le_iff,seconds_le_iff,le_antisymm_iff]

theorem sub_nonpos_iff (t u : Int) : sub t u ≤ 0 ↔ t ≤ u := by
  simp only [sub,minDuration,maxDuration]
  omega

theorem date_add_day (y m d e : Int) : date y m (d+e) = date y m d + e*nanosPerDay := by
  simp only [date,dateDays_day,Int.add_mul]

@[simp] theorem utcDay_mul (n : Int) : utcDay (n*nanosPerDay) = n := by
  simp only [utcDay,nanosPerDay]; omega

theorem hour_range (t : Int) : 0 ≤ hour t ∧ hour t ≤ 23 := by
  simp only [hour,nanosPerDay,nanosPerHour]; omega

theorem addDate_month (t : Int) (k : Int) :
    addDate (date (year t) (month t) 1) 0 k 0 = date (year t) (month t + k) 1 := by
  have hr := monthOf_range (utcDay t)
  obtain ⟨h₁,h₂⟩ := month_bounds (utcDay t)
  have hd : utcDay (date (year t) (month t) 1) = dateDays (year t) (month t) 1 := by
    simp [date]
  obtain ⟨hy,hm⟩ := month_unique (n := utcDay (date (year t) (month t) 1)) hr
    (by rw [hd]; exact Int.le_refl _) (by rw [hd]; exact Int.lt_of_le_of_lt h₁ h₂)
  have hday : day (date (year t) (month t) 1) = 1 := by
    rw [day,dayOf_eq,hy,hm,hd]
    simp only [year,month]
    omega
  have hzero : date (year t) (month t) 1 % nanosPerDay = 0 := by
    simp [date]
  have hyear : year (date (year t) (month t) 1) = year t := hy
  have hmonth : month (date (year t) (month t) 1) = month t := hm
  rw [addDate,hyear,hmonth,hday,hzero]
  simp [date]

theorem addDate_day (t : Int) (h : t%nanosPerDay = 0) (k : Int) :
    addDate t 0 0 k = t + k*nanosPerDay := by
  have ht : utcDay t * nanosPerDay = t := by
    simp only [utcDay,nanosPerDay] at *; omega
  rw [addDate,dateDays_day,Int.add_zero,Int.add_zero,h]
  simp only [year,month,day]
  rw [dateDays_civil,Int.add_mul,ht,Int.add_zero]

/-- The `time` package's zero-padded decimal printing. -/
def appendInt (x : Int) (width : Nat) : List Char :=
  (if x < 0 then ['-'] else []) ++
    (List.replicate (width - (Nat.toDigits 10 x.natAbs).length) '0' ++ Nat.toDigits 10 x.natAbs)

def formatMonth (t : Int) : List Char :=
  appendInt (year t) 4 ++ '-' :: appendInt (month t) 2

def formatDate (t : Int) : List Char :=
  formatMonth t ++ '-' :: appendInt (day t) 2

def formatClock (t : Int) : List Char :=
  appendInt (hour t) 2 ++ ':' :: appendInt (minute t) 2

/-- `Time.ISOWeek`, the number only: the week of a day is numbered within the
year of its Thursday. -/
def isoWeek (t : Int) : Int :=
  let thursday := utcDay t - sinceMonday (utcDay t) + 3
  (thursday - daysBeforeYear (yearOf thursday))/7 + 1

theorem isoWeek_late {n : Int} (h : sinceMonday n = 0) (hlate : LateInYear n) :
    isoWeek (n*nanosPerDay) = 1 := by
  obtain ⟨h₁,h₂⟩ := yearOf_bounds n
  have hlen := daysBeforeYear_length (yearOf n + 1)
  unfold LateInYear at hlate
  simp only [isoWeek,utcDay_mul,h,Int.sub_zero]
  rw [yearOf_unique (n := n+3) (y := yearOf n + 1) (by omega) (by omega)]
  omega

theorem isoWeek_of_not_late {n : Int} (h : sinceMonday n = 0) (hlate : ¬ LateInYear n) :
    isoWeek (n*nanosPerDay) = (n+3-daysBeforeYear (yearOf n))/7 + 1 := by
  obtain ⟨h₁,h₂⟩ := yearOf_bounds n
  unfold LateInYear at hlate
  simp only [isoWeek,utcDay_mul,h,Int.sub_zero]
  rw [yearOf_unique (n := n+3) (y := yearOf n) (by omega) (by omega)]

/-- Two Mondays of a year have one week number if one is the first of the year and the
other belongs to the first week of the next. -/
theorem isoWeek_eq_iff {n k : Int} (hn : sinceMonday n = 0) (hk : sinceMonday k = 0)
    (hy : yearOf n = yearOf k) :
    isoWeek (n*nanosPerDay) = isoWeek (k*nanosPerDay) ↔
      n = k ∨ EarlyInYear n ∧ LateInYear k ∨ LateInYear n ∧ EarlyInYear k := by
  obtain ⟨h₁,h₂⟩ := yearOf_bounds n
  obtain ⟨h₃,h₄⟩ := yearOf_bounds k
  have hlen := daysBeforeYear_length (yearOf k)
  by_cases hln : LateInYear n
  · rw [isoWeek_late hn hln]
    by_cases hlk : LateInYear k
    · refine iff_of_true (isoWeek_late hk hlk).symm (.inl ?_)
      simp only [LateInYear,sinceMonday,hy] at *
      omega
    · rw [isoWeek_of_not_late hk hlk]
      simp only [EarlyInYear,LateInYear,sinceMonday,hy] at *
      omega
  · rw [isoWeek_of_not_late hn hln]
    by_cases hlk : LateInYear k
    · rw [isoWeek_late hk hlk]
      simp only [EarlyInYear,LateInYear,sinceMonday,hy] at *
      omega
    · rw [isoWeek_of_not_late hk hlk]
      simp only [EarlyInYear,LateInYear,sinceMonday,hy] at *
      omega

theorem padded_value (k n : Nat) :
    Nat.ofDigitChars 10 (List.replicate k '0' ++ Nat.toDigits 10 n) 0 = n := by
  rw [Nat.ofDigitChars_append,Nat.ofDigitChars_replicate_zero,Nat.mul_zero,
    Nat.ofDigitChars_ten_toDigits]

theorem padded_isDigit {k n : Nat} {c : Char}
    (h : c ∈ List.replicate k '0' ++ Nat.toDigits 10 n) : c.isDigit = true := by
  rcases List.mem_append.mp h with h | h
  · rw [List.eq_of_mem_replicate h]; decide
  · exact Nat.isDigit_of_mem_toDigits (by decide) (by decide) h

theorem appendInt_char {x : Int} {w : Nat} {c : Char} (h : c ∈ appendInt x w) :
    c = '-' ∨ c.isDigit = true := by
  rcases List.mem_append.mp h with h | h
  · by_cases hx : x < 0 <;> simp [hx] at h
    exact .inl h
  · exact .inr (padded_isDigit h)

theorem appendInt_injective {x y : Int} {w : Nat} (h : appendInt x w = appendInt y w) :
    x = y := by
  -- a minus sign never starts a digit string
  have hsign : ∀ {k n m l : Nat}, ['-'] ++ (List.replicate k '0' ++ Nat.toDigits 10 n) ≠
      [] ++ (List.replicate l '0' ++ Nat.toDigits 10 m) := by
    intro k n m l he
    have hm : '-' ∈ List.replicate l '0' ++ Nat.toDigits 10 m := by
      rw [List.nil_append] at he
      rw [← he]; simp
    exact absurd (padded_isDigit hm) (by decide)
  have hval : ∀ {k n m l : Nat}, List.replicate k '0' ++ Nat.toDigits 10 n =
      List.replicate l '0' ++ Nat.toDigits 10 m → n = m := by
    intro k n m l he
    rw [← padded_value k n,he,padded_value]
  by_cases hx : x < 0 <;> by_cases hy : y < 0 <;> simp only [appendInt,hx,hy,if_true,if_false] at h
  · have := hval (List.append_cancel_left h)
    omega
  · exact absurd h hsign
  · exact absurd h.symm hsign
  · have := hval (List.append_cancel_left h)
    omega

theorem appendInt_two {x : Int} (h : 0 ≤ x ∧ x ≤ 99) : (appendInt x 2).length = 2 := by
  have hl : (Nat.toDigits 10 x.natAbs).length ≤ 2 :=
    (Nat.length_toDigits_le_iff (by decide) (by decide)).mpr (by omega)
  have hx : ¬ x < 0 := by omega
  simp [appendInt,hx]
  omega

theorem month_two (t : Int) : (appendInt (month t) 2).length = 2 :=
  appendInt_two (by have h := monthOf_range (utcDay t); simp only [month]; omega)

theorem day_two (t : Int) : (appendInt (day t) 2).length = 2 :=
  appendInt_two (by have h := dayOf_range (utcDay t); simp only [day]; omega)

theorem hour_two (t : Int) : (appendInt (hour t) 2).length = 2 :=
  appendInt_two (by have h := hour_range t; omega)

theorem minute_two (t : Int) : (appendInt (minute t) 2).length = 2 :=
  appendInt_two (by simp only [minute,nanosPerHour]; omega)

theorem formatMonth_injective {t u : Int} (h : formatMonth t = formatMonth u) :
    year t = year u ∧ month t = month u := by
  obtain ⟨hy,hm⟩ := List.append_inj' h (by simp [month_two])
  exact ⟨appendInt_injective hy,appendInt_injective (List.cons.inj hm).2⟩

theorem formatDate_injective {t u : Int} (h : formatDate t = formatDate u) :
    utcDay t = utcDay u := by
  obtain ⟨hm,hd⟩ := List.append_inj' h (by simp [day_two])
  obtain ⟨hy,hm⟩ := formatMonth_injective hm
  exact civil_injective hy hm (appendInt_injective (List.cons.inj hd).2)

theorem formatClock_length (t : Int) : (formatClock t).length = 5 := by
  simp [formatClock,hour_two,minute_two]

theorem formatClock_injective {t u : Int} (h : formatClock t = formatClock u) :
    hour t = hour u := by
  obtain ⟨hh,-⟩ := List.append_inj h (by simp [hour_two])
  exact appendInt_injective hh

theorem formatDate_char {t : Int} {c : Char} (h : c ∈ formatDate t) :
    c = '-' ∨ c.isDigit = true := by
  simp only [formatDate,formatMonth,List.mem_append,List.mem_cons] at h
  rcases h with (h | h | h) | h | h
  · exact appendInt_char h
  · exact .inl h
  · exact appendInt_char h
  · exact .inl h
  · exact appendInt_char h

theorem slash_notMem_formatDate (t : Int) : '/' ∉ formatDate t := by
  intro h
  rcases formatDate_char h with h | h
  · exact absurd h (by decide)
  · exact absurd h (by decide)

end CostConsumer.Foundation.GoTime
