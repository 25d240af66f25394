import CostConsumer.Billing.Period
set_option autoImplicit false

namespace CostConsumer.Billing
open Foundation Foundation.GoTime Foundation.Calendar

inductive Period where
  | monthly : Period
  | weekly : Period
  | daily : Period
  | days (n : Int) (hn : 0 < n ∧ n ≤ 31) : Period
  | hours (n : Int) (hn : 0 < n ∧ n ≤ 24) : Period

theorem bounds_of_not {n b : Int} (h : ¬ (n ≤ 0 ∨ n > b)) : 0 < n ∧ n ≤ b := by omega

def parsePeriod (period : String) : Except PeriodError Period :=
  if period = "monthly" ∨ period = "" then .ok .monthly
  else if period = "weekly" then .ok .weekly
  else if period = "daily" then .ok .daily
  else match parseDayDuration period with
  | some n =>
    if h : n ≤ 0 ∨ n > 31 then .error (.dayDuration n) else .ok (.days n (bounds_of_not h))
  | none =>
    match parseHourDuration period with
    | some n =>
      if h : n ≤ 0 ∨ n > 24 then .error (.hourDuration n) else .ok (.hours n (bounds_of_not h))
    | none => .error (.unsupported period)

def Period.tiling : Period → Tiling Int
  | .monthly => months.scale nanosPerDay (by decide)
  | .weekly => (Tiling.uniform 7 (by decide)).scale nanosPerDay (by decide)
  | .daily => Tiling.uniform nanosPerDay (by decide)
  | .days n hn => (months.slots n hn.1).scale nanosPerDay (by decide)
  | .hours n hn =>
      ((Tiling.uniform 24 (by decide)).slots n hn.1).scale nanosPerHour (by decide)

def Period.window (p : Period) (t : Int) : Int × Int := (p.tiling.start t,p.tiling.finish t)

theorem monthStart_eq (t : Int) :
    date (year t) (month t) 1 = months.start (utcDay t) * nanosPerDay := rfl

theorem nextMonth_eq (t : Int) :
    addDate (date (year t) (month t) 1) 0 1 0 = months.finish (utcDay t) * nanosPerDay := by
  rw [addDate_month]; rfl

theorem midnight_eq (t : Int) : date (year t) (month t) (day t) = utcDay t * nanosPerDay := by
  simp only [date,year,month,day,dateDays_civil]

theorem addDate_midnight (n k : Int) :
    addDate (n*nanosPerDay) 0 0 k = (n+k)*nanosPerDay := by
  rw [addDate_day _ (by simp),Int.add_mul]

theorem dayOfMonth_eq (t : Int) : day t - 1 = utcDay t - months.start (utcDay t) := by
  simp only [day,dayOf_eq,months]; omega

theorem hourOfDay_day (t : Int) : t/nanosPerHour/24 = utcDay t := by
  simp only [utcDay,nanosPerHour,nanosPerDay]; omega

theorem hourOfDay_eq (t : Int) : t/nanosPerHour - t/nanosPerHour/24*24 = hour t := by
  simp only [hour,nanosPerHour,nanosPerDay]; omega

theorem ite_lt_eq_min (a b : Int) : (if a > b then b else a) = min a b := by
  split <;> omega

theorem resolvePeriod_eq (period : String) (ref : Int) :
    resolvePeriod period ref = (parsePeriod period).map (fun p => p.window ref) := by
  unfold resolvePeriod parsePeriod
  split
  · simp only [Except.map,Period.window,Period.tiling,Tiling.scale,monthStart_eq]
    rw [← monthStart_eq,nextMonth_eq,monthStart_eq]
    rfl
  split
  · have hw : (if weekday ref = 0 then 7 else weekday ref) - 1 = utcDay ref % 7 := by
      unfold weekday
      by_cases h7 : (utcDay ref + 1)%7 = 0
      · rw [if_pos h7]; omega
      · rw [if_neg h7]; omega
    have hs : date (year ref) (month ref) (day ref - utcDay ref % 7) =
        (utcDay ref/7*7)*nanosPerDay := by
      rw [Int.sub_eq_add_neg,date_add_day,midnight_eq,← Int.add_mul]
      congr 1; omega
    simp only [hw,hs,addDate_midnight,Except.map,Period.window,Period.tiling,Tiling.scale,
      Tiling.uniform]
    rfl
  split
  · simp only [midnight_eq,addDate_midnight,Except.map,Period.window,Period.tiling,Tiling.uniform,
      Int.add_mul,Int.one_mul]
    rfl
  cases hd : parseDayDuration period with
  | some n =>
    by_cases hn : n ≤ 0 ∨ n > 31
    · simp [hn,Except.map]
    · simp only [hn,if_false,dite_false,nextMonth_eq]
      simp only [monthStart_eq,addDate_midnight,dayOfMonth_eq,ite_lt_eq_min,Except.map,
        Period.window,Period.tiling,Tiling.scale,Tiling.slots]
      change _ = Except.ok ((months.start (utcDay ref) +
        (utcDay ref - months.start (utcDay ref))/n*n)*nanosPerDay,
        min (months.start (utcDay ref) + (utcDay ref - months.start (utcDay ref))/n*n + n)
          (months.finish (utcDay ref))*nanosPerDay)
      generalize (utcDay ref - months.start (utcDay ref))/n*n = a
      simp only [Except.ok.injEq,Prod.mk.injEq,nanosPerDay,true_and]
      omega
  | none =>
    cases hh : parseHourDuration period with
    | some n =>
      by_cases hn : n ≤ 0 ∨ n > 24
      · simp [hn,Except.map]
      · simp only [hn,if_false,dite_false,midnight_eq,addDate_midnight,ite_lt_eq_min,Except.map,
          Period.window,Period.tiling,Tiling.scale,Tiling.slots,Tiling.uniform]
        rw [hourOfDay_eq,hourOfDay_day]
        generalize hour ref/n*n = a
        simp only [Except.ok.injEq,Prod.mk.injEq,nanosPerDay,nanosPerHour]
        omega
    | none => simp [Except.map]

def Period.label (p : Period) (t : Int) : List Char :=
  match p with
  | .monthly => formatMonth (p.tiling.start t)
  | .weekly => appendInt (year (p.tiling.start t)) 4 ++
      '-' :: 'W' :: appendInt (isoWeek (p.tiling.start t)) 2
  | .daily => formatDate (p.tiling.start t)
  | .days _ _ => formatDate (p.tiling.start t) ++
      '/' :: formatDate (p.tiling.finish t - nanosPerDay)
  | .hours _ _ => formatDate (p.tiling.start t) ++
      '/' :: (formatClock (p.tiling.start t) ++ '-' :: formatClock (p.tiling.finish t))

theorem periodLabel_eq {period : String} {p : Period} (h : parsePeriod period = .ok p) (t : Int) :
    periodLabel period t = String.ofList (p.label t) := by
  have hr : resolvePeriod period t = .ok (p.window t) := by
    rw [resolvePeriod_eq,h]; rfl
  unfold periodLabel
  rw [hr]
  unfold parsePeriod at h
  simp only [Period.window]
  split at h
  · rename_i hm
    cases h
    rw [if_pos hm]
    rfl
  rename_i hm
  split at h
  · rename_i hw
    cases h
    rw [if_neg hm,if_pos hw]
    simp [Period.label]
  rename_i hw
  split at h
  · rename_i hd
    cases h
    rw [if_neg hm,if_neg hw,if_pos hd]
    rfl
  rename_i hd
  rw [if_neg hm,if_neg hw,if_neg hd]
  split at h
  · rename_i n hp
    split at h
    · cases h
    · cases h
      simp [hp,Period.label]
  · rename_i hp
    split at h
    · split at h
      · cases h
      · cases h
        simp [hp,Period.label]
    · cases h

theorem formatMonth_char {t : Int} {c : Char} (h : c ∈ formatMonth t) :
    c = '-' ∨ c.isDigit = true := by
  apply formatDate_char (t := t)
  simp [formatDate,h]

theorem formatClock_char {t : Int} {c : Char} (h : c ∈ formatClock t) :
    c = '-' ∨ c = ':' ∨ c.isDigit = true := by
  simp only [formatClock,List.mem_append,List.mem_cons] at h
  rcases h with h | h | h
  · have := appendInt_char h; tauto
  · exact .inr (.inl h)
  · have := appendInt_char h; tauto

theorem mem_label_of_letter {p : Period} {t : Int} (h : 'W' ∈ p.label t) : p = .weekly := by
  cases p with
  | weekly => rfl
  | monthly => exact absurd (formatMonth_char h) (by decide)
  | daily => exact absurd (formatDate_char h) (by decide)
  | days n hn =>
    simp only [Period.label,List.mem_append,List.mem_cons] at h
    rcases h with h | h | h
    · exact absurd (formatDate_char h) (by decide)
    · exact absurd h (by decide)
    · exact absurd (formatDate_char h) (by decide)
  | hours n hn =>
    simp only [Period.label,List.mem_append,List.mem_cons] at h
    rcases h with h | h | h | h | h
    · exact absurd (formatDate_char h) (by decide)
    · exact absurd h (by decide)
    · exact absurd (formatClock_char h) (by decide)
    · exact absurd h (by decide)
    · exact absurd (formatClock_char h) (by decide)

theorem slash_notMem_formatMonth (t : Int) : '/' ∉ formatMonth t := by
  intro h
  exact absurd (formatMonth_char h) (by decide)

theorem appendInt_hyphen {x : Int} {w : Nat} {a b : List Char}
    (h : appendInt x w = a ++ '-' :: b) : a = [] := by
  cases a with
  | nil => rfl
  | cons c a =>
    have hd : '-' ∈ List.replicate (w - (Nat.toDigits 10 x.natAbs).length) '0' ++
        Nat.toDigits 10 x.natAbs := by
      unfold appendInt at h
      by_cases hx : x < 0
      · rw [if_pos hx,List.singleton_append,List.cons_append] at h
        rw [(List.cons.inj h).2]
        simp
      · rw [if_neg hx,List.nil_append] at h
        rw [h]
        simp
    exact absurd (padded_isDigit hd) (by decide)

theorem appendInt_ne_nil (x : Int) (w : Nat) : appendInt x w ≠ [] := by
  simp [appendInt]

theorem formatMonth_ne_formatDate (t u : Int) : formatMonth t ≠ formatDate u := by
  intro h
  obtain ⟨hy,-⟩ := List.append_inj' h (by simp [month_two,day_two])
  exact appendInt_ne_nil _ _ (appendInt_hyphen hy)

theorem slash_notMem_label {p : Period} {t : Int} (hp : p = .monthly ∨ p = .daily) :
    '/' ∉ p.label t := by
  rcases hp with rfl | rfl
  · exact slash_notMem_formatMonth _
  · exact slash_notMem_formatDate _

theorem monthly_window {t u : Int} (h : Period.monthly.label t = Period.monthly.label u) :
    Period.monthly.window t = Period.monthly.window u := by
  obtain ⟨hy,hm⟩ := formatMonth_injective h
  have hd : ∀ t, utcDay (Period.monthly.tiling.start t) = months.start (utcDay t) :=
    fun t => utcDay_mul _
  have hs : months.start (utcDay t) = months.start (utcDay u) := by
    simp only [year,month,hd] at hy hm
    rw [← months.start_start (utcDay t),← months.start_start (utcDay u)]
    simp only [months] at *
    rw [hy,hm]
  simp only [Period.window,Period.tiling,Tiling.scale]
  change (months.start (utcDay t)*_,months.finish (utcDay t)*_) = _
  rw [hs,months.finish_eq_of_start_eq hs]
  rfl

theorem daily_window {t u : Int} (h : Period.daily.label t = Period.daily.label u) :
    Period.daily.window t = Period.daily.window u := by
  have hd := formatDate_injective h
  simp only [Period.tiling,Tiling.uniform,utcDay,nanosPerDay] at hd
  simp only [Period.window,Period.tiling,Tiling.uniform,nanosPerDay,Prod.mk.injEq]
  omega

theorem days_window {n k : Int} {hn : 0 < n ∧ n ≤ 31} {hk : 0 < k ∧ k ≤ 31} {t u : Int}
    (h : (Period.days n hn).label t = (Period.days k hk).label u) :
    (Period.days n hn).window t = (Period.days k hk).window u := by
  have hi := (List.append_cons_inj_of_notMem (slash_notMem_formatDate _)
    (slash_notMem_formatDate _)).mp h
  have hs := formatDate_injective hi.1
  have he := formatDate_injective hi.2.2
  simp only [Period.tiling,Tiling.scale,utcDay_mul] at hs he
  simp only [Period.window,Period.tiling,Tiling.scale,hs,Prod.mk.injEq,true_and]
  simp only [utcDay,nanosPerDay] at he ⊢
  omega

theorem hours_bounds {n : Int} (hn : 0 < n ∧ n ≤ 24) (t : Int) :
    ∃ a b, 0 ≤ a ∧ a < b ∧ b ≤ 24 ∧ (Period.hours n hn).tiling.start t =
        utcDay t*nanosPerDay + a*nanosPerHour ∧
      (Period.hours n hn).tiling.finish t = utcDay t*nanosPerDay + b*nanosPerHour := by
  have hh := hour_range t
  have hle : hour t/n*n ≤ hour t := Int.ediv_mul_le _ hn.1.ne'
  have h0 : 0 ≤ hour t/n*n := Int.mul_nonneg (Int.ediv_nonneg hh.1 hn.1.le) hn.1.le
  refine ⟨hour t/n*n,min (hour t/n*n+n) 24,h0,by omega,by omega,?_⟩
  simp only [Period.tiling,Tiling.scale,Tiling.slots,Tiling.uniform]
  rw [hourOfDay_eq,hourOfDay_day]
  generalize hour t/n*n = a
  simp only [nanosPerDay,nanosPerHour]
  omega

theorem hours_window {n k : Int} {hn : 0 < n ∧ n ≤ 24} {hk : 0 < k ∧ k ≤ 24} {t u : Int}
    (h : (Period.hours n hn).label t = (Period.hours k hk).label u) :
    (Period.hours n hn).window t = (Period.hours k hk).window u := by
  obtain ⟨hd,hc⟩ := List.append_inj' h (by simp [formatClock_length])
  obtain ⟨hs,he⟩ := List.append_inj (List.cons.inj hc).2 (by simp [formatClock_length])
  replace hd := formatDate_injective hd
  replace hs := formatClock_injective hs
  replace he := formatClock_injective (List.cons.inj he).2
  obtain ⟨a,b,ha,hab,hb,h₁,h₂⟩ := hours_bounds hn t
  obtain ⟨a',b',ha',hab',hb',h₁',h₂'⟩ := hours_bounds hk u
  simp only [Period.window,h₁,h₂,h₁',h₂',hour,utcDay,nanosPerDay,nanosPerHour,
    Prod.mk.injEq] at *
  omega

theorem days_label_char {n : Int} {hn : 0 < n ∧ n ≤ 31} {t : Int} {c : Char}
    (h : c ∈ (Period.days n hn).label t) : c = '/' ∨ c = '-' ∨ c.isDigit = true := by
  simp only [Period.label,List.mem_append,List.mem_cons] at h
  rcases h with h | h | h
  · exact .inr (formatDate_char h)
  · exact .inl h
  · exact .inr (formatDate_char h)

theorem days_label_ne_hours {n k : Int} {hn : 0 < n ∧ n ≤ 31} {hk : 0 < k ∧ k ≤ 24} {t u : Int} :
    (Period.days n hn).label t ≠ (Period.hours k hk).label u := by
  intro h
  have hc : ':' ∈ (Period.days n hn).label t := by
    rw [h]
    simp [Period.label,formatClock]
  exact absurd (days_label_char hc) (by decide)

theorem label_window {p q : Period} {t u : Int} (hp : p ≠ .weekly)
    (h : p.label t = q.label u) : p.window t = q.window u := by
  have hq : q ≠ .weekly := by
    rintro rfl
    refine hp (mem_label_of_letter (t := t) ?_)
    rw [h]
    simp [Period.label]
  have hs : '/' ∈ p.label t ↔ '/' ∈ q.label u := by rw [h]
  cases p with
  | weekly => contradiction
  | monthly =>
    simp only [slash_notMem_label (.inl rfl),false_iff] at hs
    cases q with
    | weekly => contradiction
    | monthly => exact monthly_window h
    | daily => exact absurd h (formatMonth_ne_formatDate _ _)
    | days n hn => simp [Period.label] at hs
    | hours n hn => simp [Period.label] at hs
  | daily =>
    simp only [slash_notMem_label (.inr rfl),false_iff] at hs
    cases q with
    | weekly => contradiction
    | monthly => exact absurd h.symm (formatMonth_ne_formatDate _ _)
    | daily => exact daily_window h
    | days n hn => simp [Period.label] at hs
    | hours n hn => simp [Period.label] at hs
  | days n hn =>
    cases q with
    | weekly => contradiction
    | monthly => simp [Period.label,slash_notMem_formatMonth] at hs
    | daily => simp [Period.label,slash_notMem_formatDate] at hs
    | days k hk => exact days_window h
    | hours k hk => exact absurd h days_label_ne_hours
  | hours n hn =>
    cases q with
    | weekly => contradiction
    | monthly => simp [Period.label,slash_notMem_formatMonth] at hs
    | daily => simp [Period.label,slash_notMem_formatDate] at hs
    | days k hk => exact absurd h.symm days_label_ne_hours
    | hours k hk => exact hours_window h

theorem resolvePeriod_ok {period : String} {t : Int} {v : Int × Int}
    (h : resolvePeriod period t = .ok v) : ∃ p, parsePeriod period = .ok p ∧ p.window t = v := by
  rw [resolvePeriod_eq] at h
  cases hp : parsePeriod period with
  | error e => simp [hp,Except.map] at h
  | ok p =>
    simp only [hp,Except.map,Except.ok.injEq] at h
    exact ⟨p,rfl,h⟩

theorem resolvePeriod_contains {period : String} {t : Int} {v : Int × Int}
    (h : resolvePeriod period t = .ok v) : v.1 ≤ t ∧ t < v.2 := by
  obtain ⟨p,-,rfl⟩ := resolvePeriod_ok h
  exact ⟨p.tiling.start_le t,p.tiling.lt_finish t⟩

theorem resolvePeriod_of_mem {period : String} {t u : Int} {v : Int × Int}
    (h : resolvePeriod period t = .ok v) (h₁ : v.1 ≤ u) (h₂ : u < v.2) :
    resolvePeriod period u = .ok v := by
  obtain ⟨p,hp,rfl⟩ := resolvePeriod_ok h
  obtain ⟨hs,hf⟩ := p.tiling.same t u h₁ h₂
  rw [resolvePeriod_eq,hp]
  simp [Except.map,Period.window,hs,hf]

theorem resolvePeriod_next {period : String} {t : Int} {v : Int × Int}
    (h : resolvePeriod period t = .ok v) : ∃ e, resolvePeriod period v.2 = .ok (v.2,e) := by
  obtain ⟨p,hp,rfl⟩ := resolvePeriod_ok h
  refine ⟨p.tiling.finish (p.tiling.finish t),?_⟩
  rw [resolvePeriod_eq,hp]
  simp [Except.map,Period.window,p.tiling.start_finish]

theorem periodLabel_of_window {period : String} {t u : Int} {v : Int × Int}
    (ht : resolvePeriod period t = .ok v) (hu : resolvePeriod period u = .ok v) :
    periodLabel period t = periodLabel period u := by
  unfold periodLabel
  rw [ht,hu]

def windowsFrom (period : String) (t : Int) : Nat → Except PeriodError (List (Int × Int))
  | 0 => .ok []
  | n+1 =>
    match resolvePeriod period t with
    | .error e => .error e
    | .ok v => (windowsFrom period v.2 n).map (v :: ·)

theorem windowsFrom_eq {period : String} {p : Period} (hp : parsePeriod period = .ok p) (t : Int)
    (n : Nat) : windowsFrom period t n = .ok (p.tiling.run t n) := by
  induction n generalizing t with
  | zero => rfl
  | succ n ih =>
    have hv : resolvePeriod period t = .ok (p.window t) := by
      rw [resolvePeriod_eq,hp]
      rfl
    simp only [windowsFrom,hv,ih]
    rfl

theorem windowsFrom_parse {period : String} {t : Int} {n : Nat} {ws : List (Int × Int)}
    (h : windowsFrom period t (n+1) = .ok ws) : ∃ p, parsePeriod period = .ok p := by
  cases hr : resolvePeriod period t with
  | error e => simp [windowsFrom,hr] at h
  | ok v =>
    obtain ⟨p,hp,-⟩ := resolvePeriod_ok hr
    exact ⟨p,hp⟩

theorem parsePeriod_weekly {period : String} (h : parsePeriod period = .ok .weekly) :
    period = "weekly" := by
  unfold parsePeriod at h
  split at h
  · cases h
  split at h
  · assumption
  split at h
  · cases h
  split at h
  · split at h <;> cases h
  · split at h
    · split at h <;> cases h
    · cases h

/-- Entries of one cache key lie in one window: two accepted periods, the first
not weekly, print the same label only for the same window. -/
theorem resolvePeriod_of_label {period period' : String} {t u : Int} {v v' : Int × Int}
    (hw : period ≠ "weekly") (ht : resolvePeriod period t = .ok v)
    (hu : resolvePeriod period' u = .ok v') (h : periodLabel period t = periodLabel period' u) :
    v = v' := by
  obtain ⟨p,hp,rfl⟩ := resolvePeriod_ok ht
  obtain ⟨q,hq,rfl⟩ := resolvePeriod_ok hu
  rw [periodLabel_eq hp,periodLabel_eq hq,String.ofList_inj] at h
  refine label_window ?_ h
  rintro rfl
  exact hw (parsePeriod_weekly hp)

end CostConsumer.Billing
