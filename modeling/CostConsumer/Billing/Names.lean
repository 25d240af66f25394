import CostConsumer.Billing.Windows
set_option autoImplicit false

/-!
The texts that name a billing period: which are accepted, which of them cut time into
the same windows, and where the label of a window is the label of another one too.
-/

namespace CostConsumer.Billing
open Foundation Foundation.GoTime Foundation.Calendar

def Accepted (period : String) : Prop :=
  period ∈ ["monthly","","weekly","daily"] ∨
    (∃ n, parseDayDuration period = some n ∧ 1 ≤ n ∧ n ≤ 31) ∨
      ∃ n, parseHourDuration period = some n ∧ 1 ≤ n ∧ n ≤ 24

section Parse
variable {period : String} {n : Int}

theorem parseDuration_unit {unit unit' : Char} (h : parseDuration unit period = some n) (hne : unit ≠ unit') :
    parseDuration unit' period = none := by
  unfold parseDuration at h ⊢
  dsimp only at h ⊢
  split at h
  · rename_i hlast
    rw [if_neg]
    rw [hlast]
    exact fun heq => hne (Option.some.inj heq)
  · cases h

theorem parsePeriod_days (h : parseDayDuration period = some n) (hn : 0 < n ∧ n ≤ 31) :
    parsePeriod period = .ok (.days n hn) := by
  have hname : ∀ name, parseDayDuration name = none → period ≠ name := by
    rintro name hnone rfl
    rw [hnone] at h
    cases h
  unfold parsePeriod
  rw [if_neg (not_or.mpr ⟨hname _ (by decide),hname _ (by decide)⟩),if_neg (hname _ (by decide)),
    if_neg (hname _ (by decide)),h]
  simp only [dif_neg (show ¬ (n ≤ 0 ∨ n > 31) by omega)]

theorem parsePeriod_hours (h : parseHourDuration period = some n) (hn : 0 < n ∧ n ≤ 24) :
    parsePeriod period = .ok (.hours n hn) := by
  have hname : ∀ name, parseHourDuration name = none → period ≠ name := by
    rintro name hnone rfl
    rw [hnone] at h
    cases h
  have hday : parseDayDuration period = none := parseDuration_unit h (by decide)
  unfold parsePeriod
  rw [if_neg (not_or.mpr ⟨hname _ (by decide),hname _ (by decide)⟩),if_neg (hname _ (by decide)),
    if_neg (hname _ (by decide)),hday]
  simp only [h,dif_neg (show ¬ (n ≤ 0 ∨ n > 24) by omega)]

theorem parsePeriod_ok_iff : (∃ p, parsePeriod period = .ok p) ↔ Accepted period := by
  constructor
  · rintro ⟨p,h⟩
    by_cases hname : period ∈ ["monthly","","weekly","daily"]
    · exact .inl hname
    simp only [List.mem_cons,List.not_mem_nil,or_false,not_or] at hname
    obtain ⟨h₁,h₂,h₃,h₄⟩ := hname
    unfold parsePeriod at h
    rw [if_neg (not_or.mpr ⟨h₁,h₂⟩),if_neg h₃,if_neg h₄] at h
    cases hd : parseDayDuration period with
    | some n =>
      simp only [hd] at h
      split at h
      · cases h
      · exact .inr (.inl ⟨n,hd,by omega⟩)
    | none =>
      simp only [hd] at h
      cases hh : parseHourDuration period with
      | some n =>
        simp only [hh] at h
        split at h
        · cases h
        · exact .inr (.inr ⟨n,hh,by omega⟩)
      | none => simp [hh] at h
  · rintro (h | ⟨n,h,hn⟩ | ⟨n,h,hn⟩)
    · simp only [List.mem_cons,List.not_mem_nil,or_false] at h
      rcases h with rfl | rfl | rfl | rfl
      · exact ⟨.monthly,rfl⟩
      · exact ⟨.monthly,rfl⟩
      · exact ⟨.weekly,rfl⟩
      · exact ⟨.daily,rfl⟩
    · exact ⟨_,parsePeriod_days h (by omega)⟩
    · exact ⟨_,parsePeriod_hours h (by omega)⟩

end Parse

theorem resolvePeriod_ok_iff (period : String) (t : Int) :
    (∃ v, resolvePeriod period t = .ok v) ↔ Accepted period := by
  rw [← parsePeriod_ok_iff]
  constructor
  · rintro ⟨v,h⟩
    obtain ⟨p,hp,-⟩ := resolvePeriod_ok h
    exact ⟨p,hp⟩
  · rintro ⟨p,hp⟩
    exact ⟨p.window t,by rw [resolvePeriod_eq,hp]; rfl⟩

theorem windows_tile {period : String} (h : Accepted period) (t : Int) :
    ∃ v, resolvePeriod period t = .ok v ∧ v.1 ≤ t ∧ t < v.2 ∧
      (∀ u, v.1 ≤ u → u < v.2 → resolvePeriod period u = .ok v) ∧
      (∃ e, resolvePeriod period v.2 = .ok (v.2,e)) ∧
      ∀ u w, resolvePeriod period u = .ok w → w = v ∨ w.2 ≤ v.1 ∨ v.2 ≤ w.1 := by
  obtain ⟨v,hv⟩ := (resolvePeriod_ok_iff period t).mpr h
  obtain ⟨hstart,hstop⟩ := resolvePeriod_contains hv
  refine ⟨v,hv,hstart,hstop,fun u h₁ h₂ => resolvePeriod_of_mem hv h₁ h₂,resolvePeriod_next hv,
    fun u w hw => ?_⟩
  by_contra hne
  obtain ⟨hne,hoverlap⟩ := not_or.mp hne
  -- the larger of the two starts would lie in both windows
  obtain ⟨hw₁,hw₂⟩ := resolvePeriod_contains hw
  have hin := resolvePeriod_of_mem hv (u := max v.1 w.1) (by omega) (by omega)
  have hin' := resolvePeriod_of_mem hw (u := max v.1 w.1) (by omega) (by omega)
  exact hne (Except.ok.inj (hin'.symm.trans hin))

theorem windows_tile_leap_day : Accepted " 7d" ∧
    ∃ v, resolvePeriod " 7d" (date 2024 2 29) = .ok v ∧ v.1 ≤ date 2024 2 29 ∧ date 2024 2 29 < v.2 ∧
      (∀ u, v.1 ≤ u → u < v.2 → resolvePeriod " 7d" u = .ok v) ∧
      (∃ e, resolvePeriod " 7d" v.2 = .ok (v.2,e)) ∧
      ∀ u w, resolvePeriod " 7d" u = .ok w → w = v ∨ w.2 ≤ v.1 ∨ v.2 ≤ w.1 := by
  have h : Accepted " 7d" := .inr (.inl ⟨7,by decide,by decide,by decide⟩)
  exact ⟨h,windows_tile h _⟩

section Equivalent
variable {p q : Period} {t : Int}

theorem window_eq_iff : p.window t = q.window t ↔
    p.tiling.start t = q.tiling.start t ∧ p.tiling.finish t = q.tiling.finish t := by
  simp [Period.window]

theorem days_one_window (t : Int) : (Period.days 1 (by decide)).window t = Period.daily.window t := by
  obtain ⟨hs,hf⟩ := months.slots_one (t/nanosPerDay)
  refine window_eq_iff.mpr ⟨congrArg (· * nanosPerDay) hs,?_⟩
  refine (congrArg (· * nanosPerDay) hf).trans ?_
  simp only [Period.tiling,Tiling.uniform,nanosPerDay]
  omega

theorem days_31_window (t : Int) : (Period.days 31 (by decide)).window t = Period.monthly.window t := by
  obtain ⟨hs,hf⟩ := months.slots_of_le (n := 31) (by decide) (months_finish_le (t/nanosPerDay))
  exact window_eq_iff.mpr ⟨congrArg (· * nanosPerDay) hs,congrArg (· * nanosPerDay) hf⟩

theorem hours_24_window (t : Int) : (Period.hours 24 (by decide)).window t = Period.daily.window t := by
  obtain ⟨hs,hf⟩ := (Tiling.uniform 24 (by decide)).slots_of_le (n := 24) (by decide)
    (t := t/nanosPerHour) (Int.le_refl _)
  refine window_eq_iff.mpr ⟨(congrArg (· * nanosPerHour) hs).trans ?_,(congrArg (· * nanosPerHour) hf).trans ?_⟩
  · simp only [Period.tiling,Tiling.uniform,nanosPerHour,nanosPerDay]
    omega
  · simp only [Period.tiling,Tiling.uniform,nanosPerHour,nanosPerDay]
    omega

end Equivalent

/-- The window of a time for one period lies in that for the other. -/
def Within (p q : String) (t : Int) : Prop :=
  ∃ v w, resolvePeriod p t = .ok v ∧ resolvePeriod q t = .ok w ∧ w.1 ≤ v.1 ∧ v.2 ≤ w.2

theorem within_of_tiling {p q : String} {pp qq : Period} {t : Int} (hp : parsePeriod p = .ok pp)
    (hq : parsePeriod q = .ok qq)
    (h : qq.tiling.start t ≤ pp.tiling.start t ∧ pp.tiling.finish t ≤ qq.tiling.finish t) : Within p q t :=
  ⟨_,_,by rw [resolvePeriod_eq,hp]; rfl,by rw [resolvePeriod_eq,hq]; rfl,h⟩

/-- Days and months have three names each, and every slot lies in one of a multiple of
its length. -/
theorem periods_agree (t : Int) :
    resolvePeriod "1d" t = resolvePeriod "daily" t ∧ resolvePeriod "24h" t = resolvePeriod "daily" t ∧
    resolvePeriod "" t = resolvePeriod "monthly" t ∧ resolvePeriod "31d" t = resolvePeriod "monthly" t ∧
    (∀ p q n k, 1 ≤ n → 1 ≤ k → n*k ≤ 31 → parseDayDuration p = some n →
      parseDayDuration q = some (n*k) → Within p q t) ∧
    ∀ p q n k, 1 ≤ n → 1 ≤ k → n*k ≤ 24 → parseHourDuration p = some n →
      parseHourDuration q = some (n*k) → Within p q t := by
  have hle : ∀ {n k : Int}, 1 ≤ n → 1 ≤ k → 0 < n*k ∧ n ≤ n*k := by
    intro n k hn hk
    have hmul := Int.mul_le_mul_of_nonneg_left hk (show 0 ≤ n by omega)
    rw [Int.mul_one] at hmul
    exact ⟨Int.mul_pos hn hk,hmul⟩
  refine ⟨?_,?_,rfl,?_,fun p q n k hn hk hnk hp hq => ?_,fun p q n k hn hk hnk hp hq => ?_⟩
  · rw [resolvePeriod_eq,resolvePeriod_eq]
    exact congrArg Except.ok (days_one_window t)
  · rw [resolvePeriod_eq,resolvePeriod_eq]
    exact congrArg Except.ok (hours_24_window t)
  · rw [resolvePeriod_eq,resolvePeriod_eq]
    exact congrArg Except.ok (days_31_window t)
  · obtain ⟨hpos,hnle⟩ := hle hn hk
    refine within_of_tiling (parsePeriod_days hp ⟨hn,by omega⟩) (parsePeriod_days hq ⟨hpos,hnk⟩) ?_
    obtain ⟨hs,hf⟩ := months.slots_nested hn hk hpos (t/nanosPerDay)
    exact ⟨Int.mul_le_mul_of_nonneg_right hs (by decide),Int.mul_le_mul_of_nonneg_right hf (by decide)⟩
  · obtain ⟨hpos,hnle⟩ := hle hn hk
    refine within_of_tiling (parsePeriod_hours hp ⟨hn,by omega⟩) (parsePeriod_hours hq ⟨hpos,hnk⟩) ?_
    obtain ⟨hs,hf⟩ := (Tiling.uniform 24 (by decide)).slots_nested hn hk hpos (t/nanosPerHour)
    exact ⟨Int.mul_le_mul_of_nonneg_right hs (by decide),Int.mul_le_mul_of_nonneg_right hf (by decide)⟩

def mondayOf (t : Int) : Int := utcDay t - sinceMonday (utcDay t)

/-- The weeks of two times start in one year, one of them in its first four days and the
other in its last three. -/
def YearEnds (t u : Int) : Prop :=
  yearOf (mondayOf t) = yearOf (mondayOf u) ∧
    (EarlyInYear (mondayOf t) ∧ LateInYear (mondayOf u) ∨ LateInYear (mondayOf t) ∧ EarlyInYear (mondayOf u))

instance (t u : Int) : Decidable (YearEnds t u) := inferInstanceAs (Decidable (_ ∧ _))

section Weekly
variable {t u : Int}

theorem mondayOf_monday (t : Int) : sinceMonday (mondayOf t) = 0 := by
  simp only [mondayOf,sinceMonday]
  omega

theorem weekly_start (t : Int) : Period.weekly.tiling.start t = mondayOf t*nanosPerDay := by
  have h : utcDay t/7*7 = mondayOf t := by
    simp only [mondayOf,sinceMonday]
    omega
  exact congrArg (· * nanosPerDay) h

theorem weekly_window_iff : Period.weekly.window t = Period.weekly.window u ↔ mondayOf t = mondayOf u := by
  constructor
  · intro h
    have hs := congrArg Prod.fst h
    simp only [Period.window,weekly_start,nanosPerDay] at hs
    omega
  · intro h
    have hs : Period.weekly.tiling.start t = Period.weekly.tiling.start u := by
      rw [weekly_start,weekly_start,h]
    rw [Period.window,Period.window,hs,Period.weekly.tiling.finish_eq_of_start_eq hs]

theorem letter_notMem (x : Int) (width : Nat) : 'W' ∉ appendInt x width :=
  fun h => absurd (appendInt_char h) (by decide)

theorem weekly_label_iff : Period.weekly.label t = Period.weekly.label u ↔
    mondayOf t = mondayOf u ∨ YearEnds t u := by
  have hlabel : Period.weekly.label t = Period.weekly.label u ↔
      yearOf (mondayOf t) = yearOf (mondayOf u) ∧
        isoWeek (mondayOf t*nanosPerDay) = isoWeek (mondayOf u*nanosPerDay) := by
    simp only [Period.label,weekly_start,year,utcDay_mul]
    constructor
    · intro h
      rw [List.append_cons,List.append_cons (appendInt (yearOf (mondayOf u)) 4)] at h
      obtain ⟨hy,-,hw⟩ := (List.append_cons_inj_of_notMem (by simp [letter_notMem]) (letter_notMem _ 2)).mp h
      exact ⟨appendInt_injective (List.append_cancel_right hy),appendInt_injective hw⟩
    · rintro ⟨hy,hw⟩
      rw [hy,hw]
  rw [hlabel]
  constructor
  · rintro ⟨hy,hw⟩
    exact ((isoWeek_eq_iff (mondayOf_monday t) (mondayOf_monday u) hy).mp hw).imp_right fun h => ⟨hy,h⟩
  · rintro (h | ⟨hy,h⟩)
    · rw [h]
      exact ⟨rfl,rfl⟩
    · exact ⟨hy,(isoWeek_eq_iff (mondayOf_monday t) (mondayOf_monday u) hy).mpr (.inr h)⟩

theorem YearEnds.ne (h : YearEnds t u) : mondayOf t ≠ mondayOf u := by
  intro heq
  obtain ⟨-,h⟩ := h
  have hlen := daysBeforeYear_length (yearOf (mondayOf u))
  simp only [heq,EarlyInYear,LateInYear] at h
  omega

end Weekly

/-- The label of a window is the label of no other window of its period, except that a
week which starts in the first four days of a year and one which starts in its last
three have the same label. -/
theorem label_identifies_window_iff {period : String} {t u : Int} {v w : Int × Int}
    (ht : resolvePeriod period t = .ok v) (hu : resolvePeriod period u = .ok w) :
    (periodLabel period t = periodLabel period u ↔ v = w) ↔ ¬ (period = "weekly" ∧ YearEnds t u) := by
  by_cases hp : period = "weekly"
  · subst hp
    have hparse : parsePeriod "weekly" = .ok .weekly := rfl
    rw [resolvePeriod_eq,hparse] at ht hu
    cases ht
    cases hu
    rw [periodLabel_eq hparse,periodLabel_eq hparse,String.ofList_inj,weekly_label_iff,weekly_window_iff]
    constructor
    · rintro h ⟨-,hends⟩
      exact hends.ne (h.mp (.inr hends))
    · intro h
      exact or_iff_left fun hends => h ⟨rfl,hends⟩
  · refine iff_of_true ⟨resolvePeriod_of_label hp ht hu,?_⟩ fun h => hp h.1
    rintro rfl
    exact periodLabel_of_window ht hu

theorem label_identifies_slots :
    (periodLabel "10d" (date 2024 2 29) = periodLabel "10d" (date 2024 2 21) ↔
      (date 2024 2 21,date 2024 3 1) = (date 2024 2 21,date 2024 3 1)) :=
  (label_identifies_window_iff (by decide +kernel) (by decide +kernel)).mpr (by decide)

/-- 1 January 2024 and 30 December 2024 are Mondays, both of a week with the number 1. -/
theorem label_of_two_weeks :
    resolvePeriod "weekly" (date 2024 1 1) = .ok (date 2024 1 1,date 2024 1 8) ∧
    resolvePeriod "weekly" (date 2024 12 30) = .ok (date 2024 12 30,date 2025 1 6) ∧
    periodLabel "weekly" (date 2024 1 1) = "2024-W01" ∧ periodLabel "weekly" (date 2024 12 30) = "2024-W01" := by
  decide +kernel

end CostConsumer.Billing
