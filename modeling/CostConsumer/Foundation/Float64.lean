import CostConsumer.Foundation.GoTime
import CostConsumer.Foundation.Numeric
import Mathlib.Algebra.Order.Field.Power
import Mathlib.Data.Int.Log
import Mathlib.Tactic.Linarith
import Mathlib.Tactic.Positivity
set_option autoImplicit false

/-!
Numbers of 53 bits, as Go's `float64` has them, among the rationals. The exponent has no
bounds: no number of the program comes near the limits of the format.
-/

namespace CostConsumer.Foundation.Float64

/-- To the nearest whole number, of two to the even one. -/
def roundEven (x : Rat) : Int :=
  if Int.fract x < 1/2 ∨ Int.fract x = 1/2 ∧ ⌊x⌋ % 2 = 0 then ⌊x⌋ else ⌊x⌋ + 1

/-- The distance of the numbers next to `x`. -/
def ulp (x : Rat) : Rat := 2^(Int.log 2 |x| - 52)

def round (x : Rat) : Rat := roundEven (x/ulp x)*ulp x

/-- `(x / y) * 100`, of numbers that are not of the format yet. -/
def percent (x y : Rat) : Rat := round (round (round x/round y)*100)

/-- The decimal with a number of digits that is nearest to `y`. -/
def withDigits (y : Rat) (digits : Nat) : Rat :=
  roundEven (y/10^(Int.log 10 |y| + 1 - digits))*10^(Int.log 10 |y| + 1 - digits)

/-- The shortest decimal that is read as `y`, which is how `y` gets into a `NUMERIC` column. -/
def decimal (y : Rat) : Rat :=
  (((List.range' 1 17).map (withDigits y)).find? (fun x => round x = y)).getD y

/-- A value of a `NUMERIC` column that is read, and written to another one. -/
def sent (x : Rat) : Rat := decimal (round x)

/-- The format `%.0f`. -/
def text (x : Rat) : String := if x < 0 ∧ roundEven x = 0 then "-0" else toString (roundEven x)

/-- The map that a loop over `xs` fills. Its keys are texts, so one of several numbers with the
same text is left, the last one. -/
def textMap {β : Type} (f : Rat → β) (xs : List Rat) : List (String × β) :=
  xs.foldl (fun entries x => entries.filter (·.1 ≠ text x) ++ [(text x,f x)]) []

/-- `Duration.Seconds`. -/
def seconds (d : Int) : Rat :=
  round (round (d/GoTime.nanosPerSecond : Int) +
    round (round (d%GoTime.nanosPerSecond : Int)/round GoTime.nanosPerSecond))

theorem abs_sub_roundEven_le (x : Rat) : |x - roundEven x| ≤ 1/2 := by
  have hx := Int.floor_add_fract x
  have h0 := Int.fract_nonneg x
  have h1 := Int.fract_lt_one x
  unfold roundEven
  split
  · rename_i h
    have hle : Int.fract x ≤ 1/2 := h.elim le_of_lt fun h => h.1.le
    rw [abs_le]
    constructor <;> linarith
  · rename_i h
    have hge : 1/2 ≤ Int.fract x := not_lt.mp fun hlt => h (.inl hlt)
    push_cast
    rw [abs_le]
    constructor <;> linarith

theorem roundEven_intCast (n : Int) : roundEven n = n := by
  unfold roundEven
  rw [Int.fract_intCast,Int.floor_intCast,if_pos (.inl (by norm_num))]

theorem le_roundEven {n : Int} {x : Rat} (h : n ≤ x) : n ≤ roundEven x := by
  have hfloor : n ≤ ⌊x⌋ := Int.le_floor.mpr h
  unfold roundEven
  split <;> omega

theorem ulp_pos (x : Rat) : 0 < ulp x := by
  unfold ulp
  positivity

theorem abs_sub_round_le (x : Rat) : |x - round x| ≤ ulp x/2 := by
  have hu := ulp_pos x
  have h := abs_sub_roundEven_le (x/ulp x)
  have hx : x - round x = (x/ulp x - roundEven (x/ulp x))*ulp x := by
    rw [round,sub_mul,div_mul_cancel₀ _ hu.ne']
  rw [hx,abs_mul,abs_of_pos hu]
  calc |x/ulp x - roundEven (x/ulp x)| * ulp x ≤ 1/2*ulp x := by gcongr
    _ = ulp x/2 := by ring

theorem round_zero : round 0 = 0 := by
  rw [round,zero_div,← Int.cast_zero,roundEven_intCast,Int.cast_zero,zero_mul]

/-- Rounding changes a number by half a unit of its last bit at most. -/
theorem abs_sub_round_le_zpow {x : Rat} {k : Int} (h : |x| < 2^k) : |x - round x| ≤ 2^(k-54) := by
  rcases eq_or_ne x 0 with rfl | hx
  · rw [round_zero,sub_zero,abs_zero]
    positivity
  have hlog : Int.log 2 |x| < k := (Int.lt_zpow_iff_log_lt Nat.one_lt_two (abs_pos.mpr hx)).mp (by exact_mod_cast h)
  have hulp : ulp x ≤ 2^(k-53) := zpow_le_zpow_right₀ (by norm_num) (by omega)
  calc |x - round x| ≤ ulp x/2 := abs_sub_round_le x
    _ ≤ 2^(k-53)/2 := by gcongr
    _ = 2^(k-54) := by
      rw [show k-53 = k-54+1 by ring,zpow_add_one₀ (by norm_num)]
      ring

theorem abs_sub_round_le_mul (x : Rat) : |x - round x| ≤ |x| * 2^(-53 : Int) := by
  rcases eq_or_ne x 0 with rfl | hx
  · rw [round_zero,sub_zero,abs_zero,zero_mul]
  have hlog : (2 : Rat)^Int.log 2 |x| ≤ |x| := by
    exact_mod_cast Int.zpow_log_le_self Nat.one_lt_two (abs_pos.mpr hx)
  calc |x - round x| ≤ ulp x/2 := abs_sub_round_le x
    _ = 2^Int.log 2 |x| * 2^(-53 : Int) := by
      rw [ulp,sub_eq_add_neg,zpow_add₀ (by norm_num)]
      norm_num
      ring
    _ ≤ |x| * 2^(-53 : Int) := by gcongr

theorem round_factor (x : Rat) : ∃ e : Rat, |e| ≤ 2^(-53 : Int) ∧ round x = x*(1 + e) := by
  rcases eq_or_ne x 0 with rfl | hx
  · exact ⟨0,by norm_num,by rw [round_zero,zero_mul]⟩
  · refine ⟨(round x - x)/x,?_,by field_simp; ring⟩
    rw [abs_div,div_le_iff₀ (abs_pos.mpr hx),abs_sub_comm,mul_comm]
    exact abs_sub_round_le_mul x

theorem abs_factors_sub_one_le {a b c d : Rat} (ha : |a| ≤ 2^(-53 : Int)) (hb : |b| ≤ 2^(-53 : Int))
    (hc : |c| ≤ 2^(-53 : Int)) (hd : |d| ≤ 2^(-53 : Int)) :
    |(1 + a)/(1 + b)*(1 + c)*(1 + d) - 1| ≤ 2^(-50 : Int) := by
  have hu : (2 : Rat)^(-50 : Int) = 8*2^(-53 : Int) := by norm_num
  have hsmall : (2 : Rat)^(-53 : Int) ≤ 1/100 := by norm_num
  have hpos : (0 : Rat) < 2^(-53 : Int) := by positivity
  rw [hu]
  generalize (2 : Rat)^(-53 : Int) = u at *
  rw [abs_le] at ha hb hc hd
  have hden : 0 < 1 + b := by linarith
  have h₁ : (1 + a)*(1 + c) ≤ 1 + 3*u := by nlinarith
  have h₂ : 1 - 2*u ≤ (1 + a)*(1 + c) := by nlinarith
  have h₃ : (1 + a)*(1 + c)*(1 + d) ≤ 1 + 5*u := by nlinarith
  have h₄ : 1 - 3*u ≤ (1 + a)*(1 + c)*(1 + d) := by nlinarith
  have hfrac : (1 + a)/(1 + b)*(1 + c)*(1 + d) - 1 = ((1 + a)*(1 + c)*(1 + d) - (1 + b))/(1 + b) := by
    field_simp
  rw [hfrac,abs_div,abs_of_pos hden,div_le_iff₀ hden,abs_le]
  constructor <;> nlinarith

/-- The four roundings of a percentage change it by a factor close to one. -/
theorem abs_percent_sub_le (x y : Rat) : |percent x y - x/y*100| ≤ |x/y*100| * 2^(-50 : Int) := by
  obtain ⟨a,ha,hx⟩ := round_factor x
  obtain ⟨b,hb,hy⟩ := round_factor y
  obtain ⟨c,hc,hq⟩ := round_factor (round x/round y)
  obtain ⟨d,hd,hp⟩ := round_factor (round (round x/round y)*100)
  have hfactor : percent x y - x/y*100 = x/y*100*((1 + a)/(1 + b)*(1 + c)*(1 + d) - 1) := by
    rw [percent,hp,hq,hx,hy,mul_div_mul_comm]
    ring
  rw [hfactor,abs_mul]
  gcongr
  exact abs_factors_sub_one_le ha hb hc hd

theorem zpow_le_round {x : Rat} {k : Int} (h : 2^k ≤ x) : 2^k ≤ round x := by
  have hpos : 0 < x := lt_of_lt_of_le (by positivity) h
  have habs : |x| = x := abs_of_pos hpos
  have hk : k ≤ Int.log 2 x := (Int.zpow_le_iff_le_log Nat.one_lt_two hpos).mp (by exact_mod_cast h)
  have hlog : (2 : Rat)^Int.log 2 x ≤ x := by exact_mod_cast Int.zpow_log_le_self Nat.one_lt_two hpos
  have hulp : (2 : Rat)^Int.log 2 x = 2^52*ulp x := by
    rw [ulp,habs,sub_eq_add_neg,zpow_add₀ (by norm_num)]
    norm_num
    ring
  have hmantissa : ((2^52 : Int) : Rat) ≤ x/ulp x := by
    rw [le_div_iff₀ (ulp_pos x)]
    push_cast
    linarith
  calc (2 : Rat)^k ≤ 2^Int.log 2 x := zpow_le_zpow_right₀ (by norm_num) hk
    _ = 2^52*ulp x := hulp
    _ ≤ round x := by
      have hr : ((2^52 : Int) : Rat) ≤ roundEven (x/ulp x) := Int.cast_le.mpr (le_roundEven hmantissa)
      rw [Int.cast_pow,Int.cast_ofNat] at hr
      exact mul_le_mul_of_nonneg_right hr (ulp_pos x).le

theorem round_nonneg {x : Rat} (h : 0 ≤ x) : 0 ≤ round x := by
  have hr : (0 : Int) ≤ roundEven (x/ulp x) := le_roundEven (by
    rw [Int.cast_zero]
    exact div_nonneg h (ulp_pos x).le)
  exact mul_nonneg (Int.cast_nonneg hr) (ulp_pos x).le

theorem round_intCast {n : Int} (h : |n| < 2^53) : round n = n := by
  rcases eq_or_ne n 0 with rfl | hn
  · rw [Int.cast_zero,round_zero]
  have hpos : (0 : Rat) < |(n : Rat)| := abs_pos.mpr (Int.cast_ne_zero.mpr hn)
  have hlog : Int.log 2 |(n : Rat)| < 53 :=
    (Int.lt_zpow_iff_log_lt Nat.one_lt_two hpos).mp (by exact_mod_cast h)
  obtain ⟨m,hm⟩ := Int.eq_ofNat_of_zero_le (show 0 ≤ 52 - Int.log 2 |(n : Rat)| by omega)
  have hulp : ulp n = ((2^m : Int) : Rat)⁻¹ := by
    rw [ulp,show Int.log 2 |(n : Rat)| - 52 = -(m : Int) by omega,zpow_neg,zpow_natCast]
    push_cast
    rfl
  have hscale : ((2^m : Int) : Rat) ≠ 0 := Int.cast_ne_zero.mpr (by positivity)
  rw [round,hulp,div_inv_eq_mul,← Int.cast_mul,roundEven_intCast,Int.cast_mul,
    mul_inv_cancel_right₀ hscale]

theorem decimal_error {y : Rat} {k : Int} (h0 : 0 ≤ y) (h : y < 2^k) : |decimal y - y| ≤ 2^(k-54) := by
  unfold decimal
  cases hf : ((List.range' 1 17).map (withDigits y)).find? (fun x => round x = y) with
  | none =>
    rw [Option.getD_none,sub_self,abs_zero]
    positivity
  | some x =>
    have hround : round x = y := by simpa using List.find?_some hf
    obtain ⟨digits,-,rfl⟩ := List.mem_map.mp (List.mem_of_find?_eq_some hf)
    have hnonneg : 0 ≤ withDigits y digits := by
      have hr : (0 : Int) ≤ roundEven (y/10^(Int.log 10 |y| + 1 - digits)) :=
        le_roundEven (by push_cast; positivity)
      unfold withDigits
      positivity
    have hlt : |withDigits y digits| < 2^k := by
      rw [abs_of_nonneg hnonneg]
      by_contra hge
      have := zpow_le_round (not_lt.mp hge)
      rw [hround] at this
      linarith
    have herr := abs_sub_round_le_zpow hlt
    rwa [hround] at herr

theorem abs_seconds_sub_le {d : Int} (h0 : 0 ≤ d) (hwhole : d % 1000 = 0)
    (hd : d < 2^32*GoTime.nanosPerSecond) :
    |GoTime.seconds d - seconds d| ≤ 2^(-22 : Int) + 2^(-54 : Int) := by
  unfold GoTime.nanosPerSecond at hd
  obtain ⟨sec,nsec,hsplit,hsec,hnsec⟩ : ∃ sec nsec : Int, d = sec*1000000000 + nsec ∧
      d/1000000000 = sec ∧ d%1000000000 = nsec := ⟨_,_,by omega,rfl,rfl⟩
  have hs0 : 0 ≤ sec ∧ sec ≤ 2^32 - 1 := by omega
  have hn0 : 0 ≤ nsec ∧ nsec ≤ 999999000 := by omega
  have hsecR : (0 : Rat) ≤ sec ∧ (sec : Rat) ≤ 2^32 - 1 := by exact_mod_cast hs0
  have hnsecR : (0 : Rat) ≤ nsec ∧ (nsec : Rat) ≤ 999999000 := by exact_mod_cast hn0
  have hseconds : seconds d = round (sec + round (nsec/1000000000)) := by
    rw [seconds,GoTime.nanosPerSecond,hsec,hnsec,round_intCast (abs_lt.mpr (by omega)),
      round_intCast (n := nsec) (abs_lt.mpr (by omega)),round_intCast (n := 1000000000) (by norm_num)]
    norm_num
  have hexact : GoTime.seconds d = sec + (nsec : Rat)/1000000000 := by
    rw [GoTime.seconds,GoTime.nanosPerSecond,hsplit]
    push_cast
    ring
  have hfrac : (0 : Rat) ≤ nsec/1000000000 ∧ (nsec : Rat)/1000000000 ≤ 999999/1000000 :=
    ⟨by linarith,by linarith⟩
  have hsmall : (2 : Rat)^(-54 : Int) ≤ 1/1000000 := by norm_num
  have herr := abs_le.mp (abs_sub_round_le_zpow (k := 0) (x := (nsec : Rat)/1000000000) (by
    rw [abs_of_nonneg hfrac.1]
    norm_num
    linarith))
  rw [zero_sub] at herr
  have hf := round_nonneg hfrac.1
  have herr' := abs_le.mp (abs_sub_round_le_zpow (k := 32) (x := sec + round ((nsec : Rat)/1000000000)) (by
    rw [abs_of_nonneg (by linarith)]
    norm_num
    linarith))
  rw [show (32 : Int) - 54 = -22 by norm_num] at herr'
  rw [hseconds,hexact,abs_le]
  constructor <;> linarith

theorem seconds_nonneg {d : Int} (h : 0 ≤ d) : 0 ≤ seconds d := by
  have hsec : (0 : Rat) ≤ (d/GoTime.nanosPerSecond : Int) :=
    Int.cast_nonneg (Int.ediv_nonneg h (by decide))
  have hnsec : (0 : Rat) ≤ (d%GoTime.nanosPerSecond : Int) :=
    Int.cast_nonneg (Int.emod_nonneg d (by decide))
  have hnanos : (0 : Rat) ≤ GoTime.nanosPerSecond := Int.cast_nonneg (by decide)
  exact round_nonneg (add_nonneg (round_nonneg hsec)
    (round_nonneg (div_nonneg (round_nonneg hnsec) (round_nonneg hnanos))))

/-- A duration of whole microseconds is stored as it is while its seconds have 32 bits. -/
theorem stored_seconds {d : Int} (h0 : 0 ≤ d) (hwhole : d % 1000 = 0)
    (hd : d < 2^32*GoTime.nanosPerSecond) :
    Numeric.stored 6 (decimal (seconds d)) = GoTime.seconds d := by
  obtain ⟨hlow,hhigh⟩ := abs_le.mp (abs_seconds_sub_le h0 hwhole hd)
  have hnonneg := seconds_nonneg h0
  unfold GoTime.nanosPerSecond at hd
  obtain ⟨k,rfl⟩ : ∃ k : Int, d = 1000*k := ⟨d/1000,by omega⟩
  have hexact : GoTime.seconds (1000*k) = (k : Rat)/10^6 := by
    rw [GoTime.seconds,GoTime.nanosPerSecond]
    push_cast
    ring
  have hk : (k : Rat) ≤ 2^32*10^6 - 1 := by
    have hle : k ≤ 2^32*10^6 - 1 := by omega
    exact_mod_cast hle
  rw [hexact] at hlow hhigh ⊢
  have hsum : (2 : Rat)^(-22 : Int) + 2^(-22 : Int) + 2^(-54 : Int) < 1/2/10^6 := by norm_num
  have hpos : (0 : Rat) < 2^(-22 : Int) := by positivity
  have hlt : seconds (1000*k) < 2^(32 : Int) := by
    rw [show (2 : Rat)^(32 : Int) = 2^32 by norm_num]
    linarith
  obtain ⟨hdlow,hdhigh⟩ := abs_le.mp (decimal_error hnonneg hlt)
  rw [show (32 : Int) - 54 = -22 by norm_num] at hdlow hdhigh
  have hnear : |decimal (seconds (1000*k))*10^6 - k| < 1/2 := by
    generalize (2 : Rat)^(-22 : Int) = e at hlow hhigh hsum hdlow hdhigh
    rw [abs_lt]
    constructor <;> linarith
  rw [Numeric.stored,Numeric.roundHalfAway_of_near hnear]

end CostConsumer.Foundation.Float64
