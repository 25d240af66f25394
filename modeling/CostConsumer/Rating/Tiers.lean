import CostConsumer.Foundation.Bands
import CostConsumer.Rating.Pricing
import Mathlib.Data.Finset.Max
import Mathlib.Tactic.NormNum
set_option autoImplicit false

namespace CostConsumer.Rating
open Inventory Foundation Foundation.Bands

def bands (tiers : List Tier) : List (Band Rat) := tiers.map fun t => ⟨t.upTo,t.pricePerUnit⟩

theorem tierLoop_eq (tiers : List Tier) (cost value prev : Rat) :
    tierLoop tiers cost (value-prev) prev = cost + climb prev (bands tiers) value := by
  induction tiers generalizing cost prev with
  | nil => simp [tierLoop,bands,climb]
  | cons tier tiers ih =>
    rw [tierLoop]
    split
    · rename_i hr
      rw [climb_of_le (by linarith),add_zero]
    rename_i hr
    -- after the last band that is touched nothing is left
    have hdone (cost p : Rat) : tierLoop tiers cost 0 p = cost := by
      cases tiers with
      | nil => rfl
      | cons => rw [tierLoop,if_pos le_rfl]
    have hprev : prev < value := by linarith
    rw [bands,List.map_cons]
    cases hu : tier.upTo with
    | none =>
      rw [climb_unbounded _ rfl hprev]
      simp only [gt_iff_lt,lt_irrefl,if_false,sub_self,hdone]
      ring
    | some u =>
      dsimp only
      rcases lt_or_ge value u with hv | hv
      · rw [climb_within _ rfl hprev hv,if_pos (by linarith),sub_self,hdone]
        ring
      · have hrest : value-prev-(u-prev) = value-u := by ring
        rw [climb_past _ rfl hprev hv,if_neg (by linarith),hrest,Option.getD_some,ih,bands]
        ring

theorem applyTieredRate_eq (value : Rat) (tiers : List Tier) :
    applyTieredRate value tiers = climb 0 (bands tiers) value := by
  have h := tierLoop_eq tiers 0 value 0
  rwa [sub_zero,zero_add] at h

/-- The bounds are positive and strictly increase, and just the last tier has none. -/
def Graded (tiers : List Tier) : Prop := Ladder 0 (bands tiers)

theorem Graded.rate_eq {tiers : List Tier} (h : Graded tiers) (value : Rat) :
    applyTieredRate value tiers = area 0 (bands tiers) value := by
  rw [applyTieredRate_eq,climb_eq_area h]

theorem Graded.ne_nil {tiers : List Tier} (h : Graded tiers) : tiers ≠ [] := by
  rintro rfl
  exact h

section Charge
variable {tiers : List Tier} {p v : Rat}

theorem Graded.le_charge (h : Graded tiers) {low : Rat} (hlow : ∀ t ∈ tiers, low ≤ t.pricePerUnit)
    (hp : 0 ≤ p) (hv : 0 ≤ v) : v*low ≤ applyTieredRateCumulative v p tiers := by
  have hs : ∀ b ∈ bands tiers, low ≤ b.slope := by
    intro b hb
    obtain ⟨t,ht,rfl⟩ := List.mem_map.mp hb
    exact hlow t ht
  have := le_area_sub h hs (le_add_of_nonneg_right hv : p ≤ p+v)
  rw [hinge_of_ge hp,hinge_of_ge (add_nonneg hp hv)] at this
  rw [applyTieredRateCumulative,h.rate_eq,h.rate_eq]
  linarith

theorem Graded.charge_le (h : Graded tiers) {high : Rat} (hhigh : ∀ t ∈ tiers, t.pricePerUnit ≤ high)
    (hp : 0 ≤ p) (hv : 0 ≤ v) : applyTieredRateCumulative v p tiers ≤ v*high := by
  have hs : ∀ b ∈ bands tiers, b.slope ≤ high := by
    intro b hb
    obtain ⟨t,ht,rfl⟩ := List.mem_map.mp hb
    exact hhigh t ht
  have := area_sub_le h hs (le_add_of_nonneg_right hv : p ≤ p+v)
  rw [hinge_of_ge hp,hinge_of_ge (add_nonneg hp hv)] at this
  rw [applyTieredRateCumulative,h.rate_eq,h.rate_eq]
  linarith

theorem applyTieredRateCumulative_zero (v : Rat) (tiers : List Tier) :
    applyTieredRateCumulative v 0 tiers = applyTieredRate v tiers := by
  rw [applyTieredRateCumulative,applyTieredRate_zero,zero_add,sub_zero]

theorem applyTieredRate_add (v w : Rat) (tiers : List Tier) :
    applyTieredRate (v+w) tiers = applyTieredRate v tiers + applyTieredRateCumulative w v tiers := by
  rw [applyTieredRateCumulative]
  ring

end Charge

/-- A value costs the integral of the tier prices from 0 up to it. With prices that
are not negative it costs nothing below 0, and no more than a larger value. -/
theorem tiered_rate_is_integral {tiers : List Tier} (h : Graded tiers) {v : Rat} (hv : 0 ≤ v) :
    applyTieredRate v tiers = area 0 (bands tiers) v ∧
      ((∀ t ∈ tiers, 0 ≤ t.pricePerUnit) → 0 ≤ applyTieredRate v tiers ∧
        ∀ w, v ≤ w → applyTieredRate v tiers ≤ applyTieredRate w tiers) := by
  refine ⟨h.rate_eq v,fun hprices => ⟨?_,fun w hw => ?_⟩⟩
  · have := h.le_charge hprices le_rfl hv
    rwa [mul_zero,applyTieredRateCumulative_zero] at this
  · have := h.le_charge hprices hv (sub_nonneg.mpr hw)
    have hsplit := applyTieredRate_add v (w-v) tiers
    rw [add_sub_cancel] at hsplit
    linarith

/-- The tiers of the rate guide: 20 free, the next 100 at 0.08 and the rest at 0.07. -/
def memoryTiers : List Tier := [⟨some 20,0⟩,⟨some 120,8/100⟩,⟨none,7/100⟩]

theorem memoryTiers_graded : Graded memoryTiers := by
  simp only [Graded,memoryTiers,bands,List.map_cons,List.map_nil,Ladder]
  norm_num

theorem memoryTiers_nonneg : ∀ t ∈ memoryTiers, 0 ≤ t.pricePerUnit := by decide +kernel

theorem memory_charge_is_integral : applyTieredRate 200 memoryTiers = area 0 (bands memoryTiers) 200 ∧
    0 ≤ applyTieredRate 200 memoryTiers ∧ applyTieredRate 200 memoryTiers ≤ applyTieredRate 300 memoryTiers := by
  obtain ⟨harea,hmono⟩ := tiered_rate_is_integral memoryTiers_graded (v := 200) (by norm_num)
  obtain ⟨hpos,hle⟩ := hmono memoryTiers_nonneg
  exact ⟨harea,hpos,hle 300 (by norm_num)⟩

example : applyTieredRate 200 memoryTiers = 1360/100 := by decide +kernel

/-- No bill is negative, shrinks with the usage or turns negative after prior usage
if and only if the tiers that end below an earlier bound take back, up to the next
higher bound, no more than they charge. -/
theorem tiered_bill_sound_iff {tiers : List Tier} (h : ∀ t ∈ tiers, 0 ≤ t.pricePerUnit) :
    (∀ p v v', 0 ≤ p → 0 ≤ v → v ≤ v' → 0 ≤ applyTieredRate v tiers ∧
      applyTieredRate v tiers ≤ applyTieredRate v' tiers ∧ 0 ≤ applyTieredRateCumulative v p tiers) ↔
    Steady 0 0 0 (bands tiers) := by
  have hs : ∀ b ∈ bands tiers, 0 ≤ b.slope := by
    intro b hb
    obtain ⟨t,ht,rfl⟩ := List.mem_map.mp hb
    exact h t ht
  rw [← rises_iff hs le_rfl]
  have heq : ∀ v, 0 + climb 0 (bands tiers) v = applyTieredRate v tiers := by
    intro v
    rw [zero_add,applyTieredRate_eq]
  simp only [heq]
  constructor
  · intro hsound
    exact ⟨fun v hv => (hsound 0 v v le_rfl hv.le le_rfl).1,
      fun v w hv hw => (hsound 0 v w le_rfl hv.le hw).2.1⟩
  · rintro ⟨hpos,hmono⟩ p v v' hp hv hv'
    have hnonneg : ∀ v, 0 ≤ v → 0 ≤ applyTieredRate v tiers := by
      intro v hv
      rcases hv.eq_or_lt with rfl | hv
      · rw [applyTieredRate_zero]
      · exact hpos v hv
    have hrise : ∀ v w, 0 ≤ v → v ≤ w → applyTieredRate v tiers ≤ applyTieredRate w tiers := by
      intro v w hv hw
      rcases hv.eq_or_lt with rfl | hv
      · rw [applyTieredRate_zero]
        exact hnonneg w hw
      · exact hmono v w hv hw
    exact ⟨hnonneg v hv,hrise v v' hv hv',sub_nonneg.mpr (hrise p (p+v) hp (by linarith))⟩

/-- The second tier goes back from 10 to 5, and the third prices this stretch again. -/
def backTiers (price : Rat) : List Tier := [⟨some 10,2⟩,⟨some 5,price⟩,⟨none,1⟩]

theorem tiered_bill_sound_for_tables :
    (∀ p v v', 0 ≤ p → 0 ≤ v → v ≤ v' → 0 ≤ applyTieredRate v memoryTiers ∧
      applyTieredRate v memoryTiers ≤ applyTieredRate v' memoryTiers ∧
      0 ≤ applyTieredRateCumulative v p memoryTiers) ∧
    ∀ p v v', 0 ≤ p → 0 ≤ v → v ≤ v' → 0 ≤ applyTieredRate v (backTiers 1) ∧
      applyTieredRate v (backTiers 1) ≤ applyTieredRate v' (backTiers 1) ∧
      0 ≤ applyTieredRateCumulative v p (backTiers 1) := by
  constructor
  · refine (tiered_bill_sound_iff memoryTiers_nonneg).mpr (steady_of_sorted ?_)
    decide +kernel
  · refine (tiered_bill_sound_iff (by decide +kernel)).mpr ?_
    simp only [backTiers,bands,List.map_cons,List.map_nil,Steady]
    norm_num

/-- A higher price for the stretch that is taken back, and a negative bound. -/
theorem tiered_bill_shrinks :
    applyTieredRate 11 (backTiers 3) < applyTieredRate 10 (backTiers 3) ∧
      applyTieredRateCumulative 1 10 (backTiers 3) < 0 ∧
      applyTieredRate 11 (backTiers 6) < 0 ∧ applyTieredRate 1 [⟨some (-5),1⟩,⟨none,0⟩] < 0 := by
  decide +kernel

section Split
variable {tiers : List Tier} {p v : Rat}

/-- The usage that a tier prices, after the tiers before it. -/
def tierSpan (before : List Tier) (t : Tier) : Set Rat :=
  { x | startAfter 0 (bands before) ≤ x ∧ ∀ u ∈ t.upTo, x < u }

theorem bands_append (before after : List Tier) : bands (before ++ after) = bands before ++ bands after :=
  List.map_append

theorem Graded.charge_inside {before after : List Tier} {t : Tier} (h : Graded (before ++ t :: after))
    (hv : 0 ≤ v) (hin : Set.Ico p (p+v) ⊆ tierSpan before t) :
    applyTieredRateCumulative v p (before ++ t :: after) = v*t.pricePerUnit := by
  rcases hv.eq_or_lt with rfl | hpos
  · simp [applyTieredRateCumulative]
  have hstart : startAfter 0 (bands before) ≤ p := (hin ⟨le_rfl,by linarith⟩).1
  have hend : ∀ u ∈ t.upTo, p+v ≤ u := by
    intro u hu
    refine le_of_forall_lt fun x hx => ?_
    rcases le_total p x with hpx | hxp
    · exact (hin ⟨hpx,hx⟩).2 u hu
    · exact hxp.trans_lt ((hin ⟨le_rfl,by linarith⟩).2 u hu)
  have hl : Ladder 0 (bands before ++ ⟨t.upTo,t.pricePerUnit⟩ :: bands after) := by
    have := h
    rwa [Graded,bands_append] at this
  have harea := area_sub_inside hl hstart (le_add_of_nonneg_right hv) hend
  rw [applyTieredRateCumulative,h.rate_eq,h.rate_eq,bands_append]
  refine harea.trans ?_
  ring

theorem exists_lowest (h : tiers ≠ []) : ∃ low ∈ tiers, ∀ t ∈ tiers, low.pricePerUnit ≤ t.pricePerUnit := by
  obtain ⟨low,hlow,hle⟩ := tiers.toFinset.exists_min_image (·.pricePerUnit) (by simpa using h)
  exact ⟨low,by simpa using hlow,fun t ht => hle t (by simpa using ht)⟩

theorem exists_highest (h : tiers ≠ []) : ∃ high ∈ tiers, ∀ t ∈ tiers, t.pricePerUnit ≤ high.pricePerUnit := by
  obtain ⟨high,hhigh,hle⟩ := tiers.toFinset.exists_max_image (·.pricePerUnit) (by simpa using h)
  exact ⟨high,by simpa using hhigh,fun t ht => hle t (by simpa using ht)⟩

end Split

/-- Charges after prior usage can be split, for all tiers. For graded ones a charge
lies between those at the lowest and the highest price, and within a tier it is the
one at its price. -/
theorem cumulative_charge_splits :
    (∀ (tiers : List Tier) (p v w : Rat), 0 ≤ p → 0 ≤ v → 0 ≤ w →
      applyTieredRateCumulative (v+w) p tiers =
        applyTieredRateCumulative v p tiers + applyTieredRateCumulative w (p+v) tiers) ∧
    ∀ (tiers : List Tier) (p v : Rat), Graded tiers → 0 ≤ p → 0 ≤ v →
      (∃ low ∈ tiers, ∃ high ∈ tiers,
        (∀ t ∈ tiers, low.pricePerUnit ≤ t.pricePerUnit ∧ t.pricePerUnit ≤ high.pricePerUnit) ∧
        v*low.pricePerUnit ≤ applyTieredRateCumulative v p tiers ∧
        applyTieredRateCumulative v p tiers ≤ v*high.pricePerUnit) ∧
      ∀ before t after, tiers = before ++ t :: after → Set.Ico p (p+v) ⊆ tierSpan before t →
        applyTieredRateCumulative v p tiers = v*t.pricePerUnit := by
  refine ⟨fun tiers p v w _ _ _ => ?_,fun tiers p v h hp hv => ⟨?_,?_⟩⟩
  · simp only [applyTieredRateCumulative,add_assoc]
    ring
  · obtain ⟨low,hlow,hleast⟩ := exists_lowest h.ne_nil
    obtain ⟨high,hhigh,hmost⟩ := exists_highest h.ne_nil
    exact ⟨low,hlow,high,hhigh,fun t ht => ⟨hleast t ht,hmost t ht⟩,h.le_charge hleast hp hv,
      h.charge_le hmost hp hv⟩
  · rintro before t after rfl hin
    exact h.charge_inside hv hin

theorem memory_charge_splits :
    applyTieredRateCumulative (30+20) 10 memoryTiers =
        applyTieredRateCumulative 30 10 memoryTiers + applyTieredRateCumulative 20 (10+30) memoryTiers ∧
      applyTieredRateCumulative 50 30 memoryTiers = 50*(8/100) := by
  obtain ⟨hsplit,hgraded⟩ := cumulative_charge_splits
  refine ⟨hsplit memoryTiers 10 30 20 (by norm_num) (by norm_num) (by norm_num),?_⟩
  refine (hgraded memoryTiers 30 50 memoryTiers_graded (by norm_num) (by norm_num)).2 [⟨some 20,0⟩]
    ⟨some 120,8/100⟩ [⟨none,7/100⟩] rfl fun x hx => ⟨?_,?_⟩
  · exact le_trans (by norm_num [bands,startAfter]) hx.1
  · intro u hu
    cases hu
    exact hx.2.trans (by norm_num)

/-- The charges for a list of values, each after the usage before it. -/
def cumulativeTotal (tiers : List Tier) : Rat → List Rat → Rat
  | _, [] => 0
  | prior, v :: vs => applyTieredRateCumulative v prior tiers + cumulativeTotal tiers (prior+v) vs

/-- The charges for a list of values, each by itself. -/
def perEventTotal (tiers : List Tier) (values : List Rat) : Rat :=
  (values.map fun v => applyTieredRate v tiers).sum

section Totals
variable {tiers : List Tier} {values : List Rat} {prior v : Rat}

theorem totals_related {R : Rat → Rat → Prop} (hzero : R 0 0)
    (hadd : ∀ a b c d, R a b → R c d → R (a+c) (b+d))
    (hR : ∀ v prior, 0 ≤ v → 0 ≤ prior →
      R (applyTieredRate v tiers) (applyTieredRateCumulative v prior tiers))
    (hvalues : ∀ v ∈ values, 0 ≤ v) (hprior : 0 ≤ prior) :
    R (perEventTotal tiers values) (cumulativeTotal tiers prior values) := by
  induction values generalizing prior with
  | nil => exact hzero
  | cons v values ih =>
    have hv := hvalues v List.mem_cons_self
    rw [perEventTotal,List.map_cons,List.sum_cons,cumulativeTotal]
    exact hadd _ _ _ _ (hR v prior hv hprior)
      (ih (fun w hw => hvalues w (List.mem_cons_of_mem _ hw)) (add_nonneg hprior hv))

theorem Graded.le_cumulative (h : Graded tiers) (hprices : tiers.Pairwise (·.pricePerUnit ≤ ·.pricePerUnit))
    (hv : 0 ≤ v) (hprior : 0 ≤ prior) : applyTieredRate v tiers ≤ applyTieredRateCumulative v prior tiers := by
  have := area_add_le h (List.pairwise_map.mpr hprices) hprior hv
  rw [applyTieredRateCumulative,h.rate_eq,h.rate_eq,h.rate_eq]
  linarith

theorem Graded.cumulative_le (h : Graded tiers)
    (hprices : tiers.Pairwise fun t u => u.pricePerUnit ≤ t.pricePerUnit) (hv : 0 ≤ v) (hprior : 0 ≤ prior) :
    applyTieredRateCumulative v prior tiers ≤ applyTieredRate v tiers := by
  have := le_area_add h (List.pairwise_map.mpr hprices) hprior hv
  rw [applyTieredRateCumulative,h.rate_eq,h.rate_eq,h.rate_eq]
  linarith

end Totals

/-- Accumulating makes a list of values dearer if prices rise from tier to tier,
cheaper if they fall, and no different if there is one price; from any prior usage on. -/
theorem cumulative_against_per_event {tiers : List Tier} (h : Graded tiers) {values : List Rat}
    (hvalues : ∀ v ∈ values, 0 ≤ v) {prior : Rat} (hprior : 0 ≤ prior) :
    (tiers.Pairwise (·.pricePerUnit ≤ ·.pricePerUnit) →
      perEventTotal tiers values ≤ cumulativeTotal tiers prior values) ∧
    (tiers.Pairwise (fun t u => u.pricePerUnit ≤ t.pricePerUnit) →
      cumulativeTotal tiers prior values ≤ perEventTotal tiers values) ∧
    ∀ price, (∀ t ∈ tiers, t.pricePerUnit = price) →
      cumulativeTotal tiers prior values = perEventTotal tiers values := by
  have hrise (hp : tiers.Pairwise (·.pricePerUnit ≤ ·.pricePerUnit)) :
      perEventTotal tiers values ≤ cumulativeTotal tiers prior values :=
    totals_related (R := (· ≤ ·)) le_rfl (fun _ _ _ _ => add_le_add)
      (fun _ _ hv hprior => h.le_cumulative hp hv hprior) hvalues hprior
  have hfall (hp : tiers.Pairwise fun t u => u.pricePerUnit ≤ t.pricePerUnit) :
      cumulativeTotal tiers prior values ≤ perEventTotal tiers values :=
    totals_related (R := (· ≥ ·)) le_rfl (fun _ _ _ _ => add_le_add)
      (fun _ _ hv hprior => h.cumulative_le hp hv hprior) hvalues hprior
  refine ⟨hrise,hfall,fun price hprice => ?_⟩
  have hall {R : Rat → Rat → Prop} (hR : R price price) :
      tiers.Pairwise fun t u => R t.pricePerUnit u.pricePerUnit :=
    List.pairwise_of_forall_mem_list fun t ht u hu => by rwa [hprice t ht,hprice u hu]
  exact le_antisymm (hfall (hall (R := (· ≥ ·)) le_rfl)) (hrise (hall (R := (· ≤ ·)) le_rfl))

theorem free_requests_cost_together :
    perEventTotal [⟨some 20,0⟩,⟨none,1⟩] (List.replicate 10 15) ≤
      cumulativeTotal [⟨some 20,0⟩,⟨none,1⟩] 0 (List.replicate 10 15) := by
  refine (cumulative_against_per_event ?_ (by decide +kernel) le_rfl).1 (by decide +kernel)
  simp only [Graded,bands,List.map_cons,List.map_nil,Ladder]
  norm_num

end CostConsumer.Rating
