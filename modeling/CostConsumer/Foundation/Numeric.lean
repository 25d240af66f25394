import Mathlib.Algebra.Order.Round
import Mathlib.Data.Rat.Floor
set_option autoImplicit false

namespace CostConsumer.Foundation.Numeric

def roundHalfAway (x : Rat) : Int :=
  if 0 ≤ x then ⌊x + 1/2⌋ else -⌊-x + 1/2⌋

def stored (s : Nat) (x : Rat) : Rat := roundHalfAway (x*10^s)/10^s

def Fits (p s : Nat) (x : Rat) : Prop := |roundHalfAway (x*10^s)| < 10^p

instance (p s : Nat) (x : Rat) : Decidable (Fits p s x) :=
  inferInstanceAs (Decidable (_ < _))

theorem roundHalfAway_intCast (n : Int) : roundHalfAway n = n := by
  unfold roundHalfAway
  split
  · rw [Int.floor_intCast_add]
    norm_num
  · rw [← Int.cast_neg,Int.floor_intCast_add]
    norm_num

theorem roundHalfAway_of_near {x : Rat} {n : Int} (h : |x - n| < 1/2) : roundHalfAway x = n := by
  obtain ⟨h₁,h₂⟩ := abs_lt.mp h
  unfold roundHalfAway
  split
  · rw [Int.floor_eq_iff]
    constructor <;> linarith
  · have hfloor : ⌊-x + 1/2⌋ = -n := by
      rw [Int.floor_eq_iff]
      push_cast
      constructor <;> linarith
    omega

theorem stored_of_scaled {s : Nat} {x : Rat} {n : Int} (h : x*10^s = n) : stored s x = x := by
  have h10 : (10 : Rat)^s ≠ 0 := by positivity
  rw [stored,h,roundHalfAway_intCast,← h]
  field_simp

theorem fits_stored {p s : Nat} {x : Rat} : Fits p s (stored s x) ↔ Fits p s x := by
  rw [Fits,Fits,stored,div_mul_cancel₀ _ (by positivity),roundHalfAway_intCast]

theorem stored_intCast (s : Nat) (n : Int) : stored s n = n :=
  stored_of_scaled (n := n*10^s) (by push_cast; rfl)

theorem roundHalfAway_le {x : Rat} {n : Int} (h : x ≤ n) : roundHalfAway x ≤ n := by
  unfold roundHalfAway
  split
  · rw [← Int.lt_add_one_iff,Int.floor_lt]
    push_cast
    linarith
  · have hneg : -n ≤ ⌊-x + 1/2⌋ := by
      rw [Int.le_floor]
      push_cast
      linarith
    omega

theorem stored_le {s : Nat} {x : Rat} {n : Int} (h : x*10^s ≤ n) : stored s x ≤ n/10^s := by
  have hle : (roundHalfAway (x*10^s) : Rat) ≤ n := Int.cast_le.mpr (roundHalfAway_le h)
  unfold stored
  gcongr

theorem roundHalfAway_zero : roundHalfAway 0 = 0 := roundHalfAway_intCast 0

theorem roundHalfAway_neg (x : Rat) : roundHalfAway (-x) = -roundHalfAway x := by
  unfold roundHalfAway
  rcases lt_trichotomy x 0 with h | h | h
  · rw [if_pos (by linarith),if_neg (by linarith),neg_neg]
  · subst h
    norm_num
  · rw [if_neg (by linarith),if_pos h.le,neg_neg]

theorem roundHalfAway_mono {x y : Rat} (h : x ≤ y) : roundHalfAway x ≤ roundHalfAway y := by
  have hpos : ∀ {a b : Rat}, 0 ≤ a → a ≤ b → roundHalfAway a ≤ roundHalfAway b := by
    intro a b ha hab
    rw [roundHalfAway,roundHalfAway,if_pos ha,if_pos (ha.trans hab)]
    exact Int.floor_mono (by linarith)
  rcases le_total 0 x with hx | hx
  · exact hpos hx h
  rcases le_total 0 y with hy | hy
  · calc roundHalfAway x ≤ 0 := roundHalfAway_le (by exact_mod_cast hx)
      _ = roundHalfAway 0 := roundHalfAway_zero.symm
      _ ≤ roundHalfAway y := hpos le_rfl hy
  · have hneg := hpos (neg_nonneg.mpr hy) (neg_le_neg h)
    rw [roundHalfAway_neg,roundHalfAway_neg] at hneg
    omega

def Tie (x : Rat) : Prop := Int.fract x = 1/2

instance (x : Rat) : Decidable (Tie x) := inferInstanceAs (Decidable (_ = _))

theorem tie_intCast_add (n : Int) (x : Rat) : Tie (n + x) ↔ Tie x := by
  rw [Tie,Tie,Int.fract_intCast_add]

theorem roundHalfAway_eq (x : Rat) :
    roundHalfAway x = ⌊x + 1/2⌋ - if x < 0 ∧ Tie x then 1 else 0 := by
  unfold roundHalfAway
  by_cases hx : 0 ≤ x
  · rw [if_pos hx,if_neg (fun h => absurd h.1 (not_lt.mpr hx)),sub_zero]
  have hfract := Int.floor_add_fract x
  rw [if_neg hx]
  by_cases ht : Tie x
  · rw [if_pos ⟨not_le.mp hx,ht⟩]
    rw [ht] at hfract
    have h₁ : -x + 1/2 = ((-⌊x⌋ : Int) : Rat) := by push_cast; linarith
    have h₂ : x + 1/2 = ((⌊x⌋ + 1 : Int) : Rat) := by push_cast; linarith
    rw [h₁,h₂,Int.floor_intCast,Int.floor_intCast]
    omega
  · rw [if_neg (fun h => ht h.2)]
    have h0 := Int.fract_nonneg x
    have h1 := Int.fract_lt_one x
    rcases lt_or_gt_of_ne ht with hlt | hgt
    · have h₁ : ⌊-x + 1/2⌋ = -⌊x⌋ := by
        rw [Int.floor_eq_iff]
        push_cast
        constructor <;> linarith
      have h₂ : ⌊x + 1/2⌋ = ⌊x⌋ := by
        rw [Int.floor_eq_iff]
        constructor <;> linarith
      omega
    · have h₁ : ⌊-x + 1/2⌋ = -⌊x⌋ - 1 := by
        rw [Int.floor_eq_iff]
        push_cast
        constructor <;> linarith
      have h₂ : ⌊x + 1/2⌋ = ⌊x⌋ + 1 := by
        rw [Int.floor_eq_iff]
        push_cast
        constructor <;> linarith
      omega

theorem roundHalfAway_intCast_add (n : Int) (x : Rat) :
    roundHalfAway (n + x) = n + roundHalfAway x ↔ ¬ Tie x ∨ (0 ≤ x ↔ 0 ≤ n + x) := by
  have hfloor : ⌊n + x + 1/2⌋ = n + ⌊x + 1/2⌋ := by rw [add_assoc,Int.floor_intCast_add]
  rw [roundHalfAway_eq,roundHalfAway_eq,hfloor]
  simp only [tie_intCast_add]
  by_cases ht : Tie x
  · by_cases hx : x < 0 <;> by_cases hs : n + x < 0 <;>
      simp [ht,hx,hs,← not_lt] <;> omega
  · simp [ht]

theorem stored_neg (s : Nat) (x : Rat) : stored s (-x) = -stored s x := by
  rw [stored,stored,neg_mul,roundHalfAway_neg,Int.cast_neg,neg_div]

theorem stored_mono {s : Nat} {x y : Rat} (h : x ≤ y) : stored s x ≤ stored s y := by
  have hle : roundHalfAway (x*10^s) ≤ roundHalfAway (y*10^s) :=
    roundHalfAway_mono (by gcongr)
  unfold stored
  gcongr

theorem sub_roundHalfAway_le (x : Rat) : x - roundHalfAway x ≤ 1/2 := by
  have h := Int.lt_floor_add_one (x + 1/2)
  have h' := Int.floor_le (x + 1/2)
  rw [roundHalfAway_eq]
  by_cases ht : x < 0 ∧ Tie x
  · have hx := Int.floor_add_fract x
    rw [ht.2] at hx
    have hf : x + 1/2 = ((⌊x⌋ + 1 : Int) : Rat) := by push_cast; linarith
    rw [if_pos ht,hf,Int.floor_intCast]
    push_cast
    linarith
  · rw [if_neg ht]
    push_cast
    linarith

theorem sub_stored_le (s : Nat) (x : Rat) : x - stored s x ≤ 1/2/10^s := by
  have h10 : (0 : Rat) < 10^s := by positivity
  have h := sub_roundHalfAway_le (x*10^s)
  rw [stored,le_div_iff₀ h10,sub_mul,div_mul_cancel₀ _ h10.ne']
  exact h

/-- A value of a `NUMERIC(p,s)` column, counted in its last decimal. -/
structure Column (p s : Nat) where
  units : Int
  fits : |units| < 10^p
  deriving DecidableEq

namespace Column

variable {p s : Nat}

def value (c : Column p s) : Rat := c.units/10^s

instance : Zero (Column p s) := ⟨0,by simp⟩

/-- A value that does not fit is an error of the statement. -/
def store (x : Rat) : Option (Column p s) :=
  if h : Fits p s x then some ⟨roundHalfAway (x*10^s),h⟩ else none

theorem value_of_store {x : Rat} {c : Column p s} (h : store x = some c) : c.value = stored s x := by
  unfold store at h
  split at h
  · cases h; rfl
  · cases h

@[simp] theorem value_zero : (0 : Column p s).value = 0 := by
  change ((0 : Int) : Rat)/10^s = 0
  simp

theorem value_scaled (c : Column p s) : c.value*10^s = c.units := by
  rw [value,div_mul_cancel₀ _ (by positivity)]

theorem stored_value (c : Column p s) : stored s c.value = c.value :=
  stored_of_scaled c.value_scaled

theorem value_le_stored {c : Column p s} {x : Rat} (h : c.value ≤ x) : c.value ≤ stored s x :=
  c.stored_value ▸ stored_mono h

theorem stored_le_value {c : Column p s} {x : Rat} (h : x ≤ c.value) : stored s x ≤ c.value :=
  c.stored_value ▸ stored_mono h

/-- Rounding commutes with the addition to a stored value except for ties whose
sign the addition changes. -/
theorem stored_add_iff (c : Column p s) (x : Rat) :
    stored s (c.value + x) = c.value + stored s x ↔
      ¬ Tie (x*10^s) ∨ (0 ≤ x ↔ 0 ≤ c.value + x) := by
  have h10 : (0 : Rat) < 10^s := by positivity
  have hmul : (c.value + x)*10^s = c.units + x*10^s := by rw [add_mul,c.value_scaled]
  have hadd : c.value + stored s x = (c.units + roundHalfAway (x*10^s) : Int)/10^s := by
    rw [stored,value,Int.cast_add,add_div]
  rw [hadd,stored,hmul,div_left_inj' h10.ne',Int.cast_inj,roundHalfAway_intCast_add,← hmul,
    mul_nonneg_iff_of_pos_right h10,mul_nonneg_iff_of_pos_right h10]

theorem store_of_stored {c : Column p s} {x : Rat} (h : stored s x = c.value) : store x = some c := by
  have hunits : roundHalfAway (x*10^s) = c.units := by
    rw [stored,value,div_left_inj' (by positivity),Int.cast_inj] at h
    exact h
  have hfits : Fits p s x := by
    rw [Fits,hunits]
    exact c.fits
  rw [store,dif_pos hfits]
  obtain ⟨units,fits⟩ := c
  subst hunits
  rfl

theorem store_between {c d : Column p s} {x : Rat} (hc : c.value ≤ x) (hd : x ≤ d.value) :
    ∃ e : Column p s, store x = some e := by
  have h10 : (0 : Rat) ≤ 10^s := by positivity
  have hlow := roundHalfAway_mono (mul_le_mul_of_nonneg_right hc h10)
  have hhigh := roundHalfAway_mono (mul_le_mul_of_nonneg_right hd h10)
  rw [value_scaled,roundHalfAway_intCast] at hlow hhigh
  have hfits : Fits p s x := by
    rw [Fits,abs_lt]
    exact ⟨(abs_lt.mp c.fits).1.trans_le hlow,hhigh.trans_lt (abs_lt.mp d.fits).2⟩
  exact ⟨_,dif_pos hfits⟩

theorem value_injective {c d : Column p s} (h : c.value = d.value) : c = d := by
  have hunits : (c.units : Rat) = d.units := by rw [← c.value_scaled,← d.value_scaled,h]
  cases c; cases d
  cases Int.cast_injective hunits
  rfl

theorem unit_le_sub {c d : Column p s} (h : c.value < d.value) : 1/10^s ≤ d.value - c.value := by
  have hlt : c.units < d.units := by
    have := mul_lt_mul_of_pos_right h (show (0 : Rat) < 10^s by positivity)
    rw [c.value_scaled,d.value_scaled] at this
    exact_mod_cast this
  have hle : (1 : Rat) ≤ d.units - c.units := by exact_mod_cast Int.le_sub_left_of_add_le hlt
  rw [value,value,← sub_div]
  gcongr

theorem stored_add_sub (c d e : Column p s) :
    stored s (c.value + (d.value - e.value)) = c.value + (d.value - e.value) := by
  have h : (c.value + (d.value - e.value))*10^s = (c.units + (d.units - e.units) : Int) := by
    rw [add_mul,sub_mul,value_scaled,value_scaled,value_scaled]
    push_cast
    rfl
  exact stored_of_scaled h

theorem stored_nonneg {x : Rat} (h : 0 ≤ x) : 0 ≤ stored s x := by
  have hz := stored_of_scaled (s := s) (x := 0) (n := 0) (by simp)
  exact hz ▸ stored_mono h

theorem stored_add_of_nonneg {c : Column p s} {x : Rat} (hc : 0 ≤ c.value) (hx : 0 ≤ x) :
    stored s (c.value + x) = c.value + stored s x :=
  (c.stored_add_iff x).mpr (.inr (iff_of_true hx (add_nonneg hc hx)))

end Column

end CostConsumer.Foundation.Numeric
