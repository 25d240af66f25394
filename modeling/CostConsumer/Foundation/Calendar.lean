import CostConsumer.Foundation.Tiling
import Mathlib.Tactic.IntervalCases
import Mathlib.Tactic.Tauto
set_option autoImplicit false

namespace CostConsumer.Foundation.Calendar

def isLeap (y : Int) : Bool := y % 4 = 0 && (y % 100 ≠ 0 || y % 400 = 0)

def daysBeforeYear (y : Int) : Int :=
  365*(y-1) + (y-1)/4 - (y-1)/100 + (y-1)/400

/-- Days of the year before its 0-based month `m`; `m = 12` gives the length of
the year. -/
def daysBeforeMonth (leap : Bool) (m : Int) : Int :=
  let l : Int := if leap then 1 else 0
  if m ≤ 0 then 0
  else if m = 1 then 31
  else if m = 2 then 59+l
  else if m = 3 then 90+l
  else if m = 4 then 120+l
  else if m = 5 then 151+l
  else if m = 6 then 181+l
  else if m = 7 then 212+l
  else if m = 8 then 243+l
  else if m = 9 then 273+l
  else if m = 10 then 304+l
  else if m = 11 then 334+l
  else 365+l

theorem daysBeforeYear_succ (y : Int) :
    daysBeforeYear (y+1) = daysBeforeYear y + daysBeforeMonth (isLeap y) 12 := by
  by_cases h : isLeap y = true
  · have hl := h
    simp [isLeap] at hl
    simp [daysBeforeYear,daysBeforeMonth,h]
    omega
  · have hl := h
    simp [isLeap] at hl
    simp [daysBeforeYear,daysBeforeMonth,h]
    omega

theorem daysBeforeYear_lt {x y : Int} (h : x < y) : daysBeforeYear x < daysBeforeYear y := by
  unfold daysBeforeYear; omega

/-- The year of day `n`: whole 400-year cycles first, then centuries, leap
cycles and years. The last century of a cycle and the last year of a leap cycle
are one day longer than the others, hence the two bounds by 3. -/
def yearOf (n : Int) : Int :=
  let c := n/146097
  let d := n%146097
  let b := min 3 (d/36524)
  let d := d - 36524*b
  let a := d/1461
  let d := d%1461
  400*c + 100*b + 4*a + min 3 (d/365) + 1

theorem daysBeforeYear_digits {c b a e : Int} (hb : 0 ≤ b ∧ b ≤ 3) (ha : 0 ≤ a ∧ a ≤ 24)
    (he : 0 ≤ e ∧ e ≤ 3) :
    daysBeforeYear (400*c + 100*b + 4*a + e + 1) = 146097*c + 36524*b + 1461*a + 365*e := by
  have h₄ : (400*c + 100*b + 4*a + e)/4 = 100*c + 25*b + a := by omega
  have h₁₀₀ : (400*c + 100*b + 4*a + e)/100 = 4*c + b := by omega
  have h₄₀₀ : (400*c + 100*b + 4*a + e)/400 = c := by omega
  simp only [daysBeforeYear,Int.add_sub_cancel,h₄,h₁₀₀,h₄₀₀]
  omega

theorem isLeap_digits {c b a e : Int} (hb : 0 ≤ b ∧ b ≤ 3) (ha : 0 ≤ a ∧ a ≤ 24)
    (he : 0 ≤ e ∧ e ≤ 3) :
    isLeap (400*c + 100*b + 4*a + e + 1) = true ↔ e = 3 ∧ (a = 24 → b = 3) := by
  have h₄ : (400*c + 100*b + 4*a + e + 1)%4 = 0 ↔ e = 3 := by omega
  have h₁₀₀ : (400*c + 100*b + 4*a + e + 1)%100 = 0 ↔ a = 24 ∧ e = 3 := by omega
  have h₄₀₀ : (400*c + 100*b + 4*a + e + 1)%400 = 0 ↔ b = 3 ∧ a = 24 ∧ e = 3 := by omega
  simp only [isLeap,Bool.and_eq_true,Bool.or_eq_true,decide_eq_true_eq,ne_eq,h₄,h₁₀₀,h₄₀₀]
  tauto

theorem yearOf_bounds (n : Int) :
    daysBeforeYear (yearOf n) ≤ n ∧ n < daysBeforeYear (yearOf n + 1) := by
  have hc : 0 ≤ n%146097 ∧ n%146097 < 146097 ∧ n = 146097*(n/146097) + n%146097 := by omega
  generalize hb : min 3 (n%146097/36524) = b
  have hb' : 0 ≤ b ∧ b ≤ 3 ∧ 36524*b ≤ n%146097 ∧ (b < 3 → n%146097 < 36524*(b+1)) := by omega
  generalize hd : n%146097 - 36524*b = d
  have ha : 0 ≤ d/1461 ∧ d/1461 ≤ 24 ∧ (d = 36524 → b = 3) := by omega
  generalize he : min 3 (d%1461/365) = e
  have he' : 0 ≤ e ∧ e ≤ 3 ∧ 365*e ≤ d%1461 ∧ (e < 3 → d%1461 < 365*(e+1)) := by omega
  have hy : yearOf n = 400*(n/146097) + 100*b + 4*(d/1461) + e + 1 := by
    simp only [yearOf,hb,hd,he]
  have hlow : daysBeforeYear (yearOf n) = 146097*(n/146097) + 36524*b + 1461*(d/1461) + 365*e := by
    rw [hy]
    exact daysBeforeYear_digits ⟨hb'.1,hb'.2.1⟩ ⟨ha.1,ha.2.1⟩ ⟨he'.1,he'.2.1⟩
  have hleap : isLeap (yearOf n) = true ↔ e = 3 ∧ (d/1461 = 24 → b = 3) := by
    rw [hy]
    exact isLeap_digits ⟨hb'.1,hb'.2.1⟩ ⟨ha.1,ha.2.1⟩ ⟨he'.1,he'.2.1⟩
  rw [daysBeforeYear_succ,hlow]
  refine ⟨by omega,?_⟩
  by_cases h : isLeap (yearOf n) = true
  · simp [daysBeforeMonth,h]; omega
  · simp [daysBeforeMonth,h]
    rw [hleap] at h
    omega

theorem yearOf_unique {n y : Int} (h₁ : daysBeforeYear y ≤ n)
    (h₂ : n < daysBeforeYear (y+1)) : yearOf n = y := by
  obtain ⟨h₃,h₄⟩ := yearOf_bounds n
  rcases Int.lt_trichotomy (yearOf n) y with h | h | h
  · have hle : daysBeforeYear (yearOf n + 1) ≤ daysBeforeYear y := by
      rcases Int.lt_or_eq_of_le (Int.add_one_le_iff.mpr h) with h' | h'
      · exact Int.le_of_lt (daysBeforeYear_lt h')
      · rw [h']
    omega
  · exact h
  · have hle : daysBeforeYear (y + 1) ≤ daysBeforeYear (yearOf n) := by
      rcases Int.lt_or_eq_of_le (Int.add_one_le_iff.mpr h) with h' | h'
      · exact Int.le_of_lt (daysBeforeYear_lt h')
      · rw [h']
    omega

theorem daysBeforeMonth_step (leap : Bool) {m : Int} (hm : 0 ≤ m ∧ m ≤ 11) :
    daysBeforeMonth leap m + 28 ≤ daysBeforeMonth leap (m+1) ∧
      daysBeforeMonth leap (m+1) ≤ daysBeforeMonth leap m + 31 := by
  obtain ⟨hm₁,hm₂⟩ := hm
  cases leap <;> interval_cases m <;> decide

theorem daysBeforeMonth_mono (leap : Bool) {m k : Int} (hm : 0 ≤ m) (h : m ≤ k) (hk : k ≤ 12) :
    daysBeforeMonth leap m ≤ daysBeforeMonth leap k := by
  induction k, h using Int.leInduction with
  | base => exact Int.le_refl _
  | succ k hmk ih =>
    have hs := daysBeforeMonth_step leap (m := k) ⟨by omega,by omega⟩
    have hk' := ih (by omega)
    omega

/-- The first month from `m` on that ends after the 0-based day `d` of a year. -/
def monthSearch (leap : Bool) (d : Int) : Nat → Int → Int
  | 0, m => m
  | fuel+1, m => if d < daysBeforeMonth leap m then m else monthSearch leap d fuel (m+1)

theorem monthSearch_spec (leap : Bool) {d : Int} (fuel : Nat) {m : Int}
    (h₁ : daysBeforeMonth leap (m-1) ≤ d) (h₂ : d < daysBeforeMonth leap (m+fuel)) :
    m ≤ monthSearch leap d fuel m ∧ monthSearch leap d fuel m ≤ m+fuel ∧
      daysBeforeMonth leap (monthSearch leap d fuel m - 1) ≤ d ∧
      d < daysBeforeMonth leap (monthSearch leap d fuel m) := by
  induction fuel generalizing m with
  | zero => simpa [monthSearch] using ⟨h₁,by simpa using h₂⟩
  | succ fuel ih =>
    by_cases h : d < daysBeforeMonth leap m
    · simp only [monthSearch,h,if_true]
      exact ⟨Int.le_refl _,by omega,h₁,trivial⟩
    · simp only [monthSearch,h,if_false]
      have h' := ih (m := m+1) (by simpa using Int.not_lt.mp h)
        (by convert h₂ using 2; push_cast; omega)
      push_cast
      omega

def monthOfYearDay (leap : Bool) (d : Int) : Int := monthSearch leap d 11 1

theorem monthOfYearDay_spec (leap : Bool) {d : Int} (h₁ : 0 ≤ d)
    (h₂ : d < daysBeforeMonth leap 12) :
    (1 ≤ monthOfYearDay leap d ∧ monthOfYearDay leap d ≤ 12) ∧
      daysBeforeMonth leap (monthOfYearDay leap d - 1) ≤ d ∧
      d < daysBeforeMonth leap (monthOfYearDay leap d) := by
  have h := monthSearch_spec leap (d := d) 11 (m := 1)
    (by simpa [daysBeforeMonth] using h₁) h₂
  exact ⟨⟨h.1,h.2.1⟩,h.2.2⟩

theorem monthOfYearDay_unique (leap : Bool) {d m : Int} (hm : 1 ≤ m ∧ m ≤ 12)
    (h₁ : daysBeforeMonth leap (m-1) ≤ d) (h₂ : d < daysBeforeMonth leap m) :
    monthOfYearDay leap d = m := by
  have h0 : (0 : Int) ≤ d := by
    have h := daysBeforeMonth_mono leap (m := 0) (k := m-1) (by omega) (by omega) (by omega)
    simp only [daysBeforeMonth,Int.le_refl,if_true] at h
    exact Int.le_trans h h₁
  have h12 := daysBeforeMonth_mono leap (m := m) (k := 12) (by omega) hm.2 (by omega)
  obtain ⟨hr,hl,hu⟩ := monthOfYearDay_spec leap h0 (by omega)
  rcases Int.lt_trichotomy (monthOfYearDay leap d) m with h | h | h
  · have hmono := daysBeforeMonth_mono leap (m := monthOfYearDay leap d) (k := m-1)
      (by omega) (by omega) (by omega)
    omega
  · exact h
  · have hmono := daysBeforeMonth_mono leap (m := m) (k := monthOfYearDay leap d - 1)
      (by omega) (by omega) (by omega)
    omega

def monthOf (n : Int) : Int :=
  monthOfYearDay (isLeap (yearOf n)) (n - daysBeforeYear (yearOf n))

def dayOf (n : Int) : Int :=
  n - daysBeforeYear (yearOf n) - daysBeforeMonth (isLeap (yearOf n)) (monthOf n - 1) + 1

/-- The day number of a date. Months and days outside their usual ranges are
normalized: month 13 is January of the next year, day 0 the last of the month
before. -/
def dateDays (y m d : Int) : Int :=
  daysBeforeYear (y + (m-1)/12) + daysBeforeMonth (isLeap (y + (m-1)/12)) ((m-1)%12) + (d-1)

theorem dateDays_day (y m d e : Int) : dateDays y m (d+e) = dateDays y m d + e := by
  simp only [dateDays]; omega

theorem dateDays_of_month {y m : Int} (hm : 1 ≤ m ∧ m ≤ 12) (d : Int) :
    dateDays y m d = daysBeforeYear y + daysBeforeMonth (isLeap y) (m-1) + (d-1) := by
  have h₁ : (m-1)/12 = 0 := by omega
  have h₂ : (m-1)%12 = m-1 := by omega
  simp [dateDays,h₁,h₂]

theorem dateDays_next_month {y m : Int} (hm : 1 ≤ m ∧ m ≤ 12) :
    dateDays y (m+1) 1 = daysBeforeYear y + daysBeforeMonth (isLeap y) m := by
  by_cases h : m = 12
  · subst h
    simp [dateDays,daysBeforeYear_succ,daysBeforeMonth]
  · rw [dateDays_of_month ⟨by omega,by omega⟩]
    simp

theorem yearDay_bounds (n : Int) :
    0 ≤ n - daysBeforeYear (yearOf n) ∧
      n - daysBeforeYear (yearOf n) < daysBeforeMonth (isLeap (yearOf n)) 12 := by
  have h := yearOf_bounds n
  rw [daysBeforeYear_succ] at h
  omega

theorem monthOf_range (n : Int) : 1 ≤ monthOf n ∧ monthOf n ≤ 12 := by
  obtain ⟨h₁,h₂⟩ := yearDay_bounds n
  exact (monthOfYearDay_spec _ h₁ h₂).1

theorem dateDays_civil (n : Int) : dateDays (yearOf n) (monthOf n) (dayOf n) = n := by
  rw [dateDays_of_month (monthOf_range n)]
  simp only [dayOf]
  omega

theorem month_bounds (n : Int) :
    dateDays (yearOf n) (monthOf n) 1 ≤ n ∧ n < dateDays (yearOf n) (monthOf n + 1) 1 := by
  obtain ⟨h₁,h₂⟩ := yearDay_bounds n
  have h := (monthOfYearDay_spec _ h₁ h₂).2
  rw [dateDays_of_month (monthOf_range n),dateDays_next_month (monthOf_range n)]
  simp only [monthOf]
  omega

theorem dayOf_eq (n : Int) : dayOf n = n - dateDays (yearOf n) (monthOf n) 1 + 1 := by
  rw [dateDays_of_month (monthOf_range n)]
  simp only [dayOf]
  omega

theorem dayOf_range (n : Int) : 1 ≤ dayOf n ∧ dayOf n ≤ 31 := by
  obtain ⟨h₁,h₂⟩ := month_bounds n
  have hr := monthOf_range n
  rw [dateDays_of_month hr] at h₁
  rw [dateDays_next_month hr] at h₂
  have hm := daysBeforeMonth_step (isLeap (yearOf n)) (m := monthOf n - 1) (by omega)
  rw [dayOf_eq,dateDays_of_month hr]
  simp only [Int.sub_add_cancel] at hm
  omega

theorem month_unique {n y m : Int} (hm : 1 ≤ m ∧ m ≤ 12) (h₁ : dateDays y m 1 ≤ n)
    (h₂ : n < dateDays y (m+1) 1) : yearOf n = y ∧ monthOf n = m := by
  rw [dateDays_of_month hm] at h₁
  rw [dateDays_next_month hm] at h₂
  have hlow := daysBeforeMonth_mono (isLeap y) (m := 0) (k := m-1)
    (by omega) (by omega) (by omega)
  have hhigh := daysBeforeMonth_mono (isLeap y) (m := m) (k := 12)
    (by omega) hm.2 (by omega)
  have hzero : daysBeforeMonth (isLeap y) 0 = 0 := by simp [daysBeforeMonth]
  have hy : yearOf n = y := by
    refine yearOf_unique (by omega) ?_
    rw [daysBeforeYear_succ]
    omega
  refine ⟨hy,?_⟩
  simp only [monthOf,hy]
  exact monthOfYearDay_unique _ hm (by omega) (by omega)

theorem civil_injective {n k : Int} (hy : yearOf n = yearOf k) (hm : monthOf n = monthOf k)
    (hd : dayOf n = dayOf k) : n = k := by
  rw [← dateDays_civil n,← dateDays_civil k,hy,hm,hd]

def sinceMonday (n : Int) : Int := n%7

def months : Tiling Int where
  start n := dateDays (yearOf n) (monthOf n) 1
  finish n := dateDays (yearOf n) (monthOf n + 1) 1
  start_le n := (month_bounds n).1
  lt_finish n := (month_bounds n).2
  same n k h₁ h₂ := by
    obtain ⟨hy,hm⟩ := month_unique (monthOf_range n) h₁ h₂
    rw [hy,hm]
    exact ⟨rfl,rfl⟩

theorem months_finish_le (n : Int) : months.finish n ≤ months.start n + 31 := by
  have hr := monthOf_range n
  have hstep := (daysBeforeMonth_step (isLeap (yearOf n)) (m := monthOf n - 1) (by omega)).2
  rw [Int.sub_add_cancel] at hstep
  change dateDays (yearOf n) (monthOf n + 1) 1 ≤ dateDays (yearOf n) (monthOf n) 1 + 31
  rw [dateDays_next_month hr,dateDays_of_month hr]
  omega

def EarlyInYear (n : Int) : Prop := n - daysBeforeYear (yearOf n) < 4

def LateInYear (n : Int) : Prop := daysBeforeYear (yearOf n + 1) - n ≤ 3

instance (n : Int) : Decidable (EarlyInYear n) := inferInstanceAs (Decidable (_ < _))

instance (n : Int) : Decidable (LateInYear n) := inferInstanceAs (Decidable (_ ≤ _))

theorem daysBeforeYear_length (y : Int) : daysBeforeYear y + 365 ≤ daysBeforeYear (y+1) := by
  unfold daysBeforeYear
  omega

end CostConsumer.Foundation.Calendar
