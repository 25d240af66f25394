import Mathlib.Algebra.Order.Field.Basic
import Mathlib.Order.Interval.Set.Basic
import Mathlib.Tactic.Linarith
import Mathlib.Tactic.Ring
set_option autoImplicit false

namespace CostConsumer.Foundation

structure Band (K : Type) where
  bound : Option K
  slope : K

namespace Bands

/-- The bounds increase from `lo` on, and just the last band has none. -/
def Ladder {K : Type} [LinearOrder K] : K → List (Band K) → Prop
  | _, [] => False
  | lo, b :: bs => match b.bound with
    | none => bs = []
    | some hi => lo < hi ∧ Ladder hi bs

def startAfter {K : Type} (lo : K) : List (Band K) → K
  | [] => lo
  | b :: bs => startAfter (b.bound.getD lo) bs

namespace Ladder

variable {K : Type} [LinearOrder K] {lo : K} {b : Band K} {bs : List (Band K)}

theorem of_none (h : Ladder lo (b :: bs)) (hb : b.bound = none) : bs = [] := by
  rwa [Ladder,hb] at h

theorem of_some (h : Ladder lo (b :: bs)) {hi : K} (hb : b.bound = some hi) : lo < hi ∧ Ladder hi bs := by
  rwa [Ladder,hb] at h

theorem le_startAfter {pre : List (Band K)} (h : Ladder lo (pre ++ b :: bs)) :
    lo ≤ startAfter lo pre := by
  induction pre generalizing lo with
  | nil => exact le_rfl
  | cons c pre ih =>
    cases hc : c.bound with
    | none => exact absurd (h.of_none hc) (by simp)
    | some hi =>
      obtain ⟨hlt,hl⟩ := h.of_some hc
      rw [startAfter,hc,Option.getD_some]
      exact hlt.le.trans (ih hl)

end Ladder

variable {K : Type} [Field K] [LinearOrder K]

def hinge (lo v : K) : K := max 0 (v-lo)

/-- The length of the part of `[0,v)` in a band that starts at `lo ≥ 0`. -/
def part (lo : K) : Option K → K → K
  | none, v => max 0 (v-lo)
  | some hi, v => max 0 (min hi v - lo)

/-- The integral up to `v` of the slopes of the bands that follow each other from `lo` on. -/
def area : K → List (Band K) → K → K
  | _, [], _ => 0
  | lo, b :: bs, v => b.slope*part lo b.bound v + area (b.bound.getD lo) bs v

def climb : K → List (Band K) → K → K
  | _, [], _ => 0
  | prev, b :: bs, v =>
    if v ≤ prev then 0
    else match b.bound with
      | none => b.slope*(v-prev)
      | some hi => if v < hi then b.slope*(v-prev) else b.slope*(hi-prev) + climb hi bs v

theorem climb_of_le {prev v : K} (h : v ≤ prev) (bs : List (Band K)) : climb prev bs v = 0 := by
  cases bs with
  | nil => rfl
  | cons b bs => rw [climb,if_pos h]

section Climb
variable {prev v hi : K} {b : Band K} (bs : List (Band K))

theorem climb_unbounded (hb : b.bound = none) (hv : prev < v) : climb prev (b :: bs) v = b.slope*(v-prev) := by
  rw [climb,if_neg (not_le.mpr hv),hb]

theorem climb_within (hb : b.bound = some hi) (hv : prev < v) (hhi : v < hi) :
    climb prev (b :: bs) v = b.slope*(v-prev) := by
  rw [climb,if_neg (not_le.mpr hv),hb]
  exact if_pos hhi

theorem climb_past (hb : b.bound = some hi) (hv : prev < v) (hhi : hi ≤ v) :
    climb prev (b :: bs) v = b.slope*(hi-prev) + climb hi bs v := by
  rw [climb,if_neg (not_le.mpr hv),hb]
  exact if_neg (not_lt.mpr hhi)

end Climb

def flip (bs : List (Band K)) : List (Band K) := bs.map fun b => ⟨b.bound,-b.slope⟩

theorem Ladder.flip {lo : K} {bs : List (Band K)} (h : Ladder lo bs) : Ladder lo (flip bs) := by
  induction bs generalizing lo with
  | nil => exact h
  | cons b bs ih =>
    cases hb : b.bound with
    | none =>
      rw [h.of_none hb]
      simp [Bands.flip,Ladder,hb]
    | some hi =>
      obtain ⟨hlt,hl⟩ := h.of_some hb
      rw [Bands.flip,List.map_cons,Ladder,hb]
      exact ⟨hlt,ih hl⟩

theorem area_flip (lo : K) (bs : List (Band K)) (v : K) : area lo (flip bs) v = -area lo bs v := by
  induction bs generalizing lo with
  | nil => simp [flip,area]
  | cons b bs ih =>
    have hrest := ih (b.bound.getD lo)
    rw [flip] at hrest
    rw [flip,List.map_cons,area,area,hrest]
    ring

def Rises (top : K) (g : K → K) : Prop :=
  (∀ v, top < v → 0 ≤ g v) ∧ ∀ v w, top < v → v ≤ w → g v ≤ g w

theorem Rises.congr {top : K} {g g' : K → K} (h : Rises top g) (heq : ∀ v, top < v → g v = g' v) :
    Rises top g' := by
  refine ⟨fun v hv => heq v hv ▸ h.1 v hv,fun v w hv hw => ?_⟩
  rw [← heq v hv,← heq w (hv.trans_le hw)]
  exact h.2 v w hv hw

/-- Bands that end at or below the highest bound so far take back no more than they
give. `top` is that bound, `prev` the last one, and `acc` what the bands since `top`
have added. -/
def Steady : K → K → K → List (Band K) → Prop
  | _, _, acc, [] => 0 ≤ acc
  | top, prev, acc, b :: bs => match b.bound with
    | none => 0 ≤ acc + b.slope*(top-prev)
    | some hi =>
      if hi ≤ top then Steady top hi (acc + b.slope*(hi-prev)) bs
      else 0 ≤ acc + b.slope*(top-prev) ∧ Steady hi hi 0 bs

theorem steady_of_sorted {prev : K} {bs : List (Band K)}
    (h : (prev :: bs.filterMap (·.bound)).Pairwise (· ≤ ·)) : Steady prev prev 0 bs := by
  induction bs generalizing prev with
  | nil => exact le_rfl
  | cons b bs ih =>
    rw [Steady]
    cases hb : b.bound with
    | none => simp
    | some hi =>
      rw [List.filterMap_cons_some hb] at h
      obtain ⟨hle,hrest⟩ := List.pairwise_cons.mp h
      dsimp only
      split
      · rename_i hback
        obtain rfl := le_antisymm (hle hi List.mem_cons_self) hback
        simpa using ih hrest
      · exact ⟨by simp,ih hrest⟩

variable [IsStrictOrderedRing K]

theorem hinge_of_le {lo v : K} (h : v ≤ lo) : hinge lo v = 0 := max_eq_left (by linarith)

theorem hinge_of_ge {lo v : K} (h : lo ≤ v) : hinge lo v = v-lo := max_eq_right (by linarith)

theorem hinge_mono (lo : K) {v w : K} (h : v ≤ w) : hinge lo v ≤ hinge lo w :=
  max_le_max le_rfl (by linarith)

theorem hinge_add_le {lo v w : K} (hlo : 0 ≤ lo) (hv : 0 ≤ v) (hw : 0 ≤ w) :
    hinge lo v + hinge lo w ≤ hinge lo (v+w) := by
  rcases le_total v lo with h | h
  · rw [hinge_of_le h,zero_add]
    exact hinge_mono lo (by linarith)
  · rcases le_total w lo with h' | h'
    · rw [hinge_of_le h',add_zero]
      exact hinge_mono lo (by linarith)
    · rw [hinge_of_ge h,hinge_of_ge h',hinge_of_ge (by linarith)]
      linarith

theorem part_some {lo hi : K} (h : lo ≤ hi) (v : K) : part lo (some hi) v = hinge lo v - hinge hi v := by
  rcases le_total v hi with hv | hv
  · rw [hinge_of_le hv,sub_zero,part,min_eq_right hv]
    rfl
  · rw [hinge_of_ge hv,hinge_of_ge (h.trans hv),part,min_eq_left hv,max_eq_right (by linarith)]
    ring

theorem hinge_sub_mono {lo hi : K} (h : lo ≤ hi) {v w : K} (hv : v ≤ w) :
    hinge lo v - hinge hi v ≤ hinge lo w - hinge hi w := by
  rw [← part_some h,← part_some h]
  exact max_le_max le_rfl (sub_le_sub_right (min_le_min le_rfl hv) lo)

section Area
variable {lo : K} {b : Band K} {bs : List (Band K)}

theorem Ladder.area_eq (h : Ladder lo (b :: bs)) :
    (b.bound = none ∧ bs = [] ∧ ∀ v, area lo (b :: bs) v = b.slope*hinge lo v) ∨
    ∃ hi, b.bound = some hi ∧ lo < hi ∧ Ladder hi bs ∧
      ∀ v, area lo (b :: bs) v = b.slope*(hinge lo v - hinge hi v) + area hi bs v := by
  cases hb : b.bound with
  | none =>
    have hnil := h.of_none hb
    subst hnil
    exact .inl ⟨rfl,rfl,fun v => by simp [area,hb,part,hinge]⟩
  | some hi =>
    obtain ⟨hlt,hl⟩ := h.of_some hb
    exact .inr ⟨hi,rfl,hlt,hl,fun v => by rw [area,hb,part_some hlt.le]; rfl⟩

theorem area_of_le (h : Ladder lo bs) {v : K} (hv : v ≤ lo) : area lo bs v = 0 := by
  induction bs generalizing lo with
  | nil => rfl
  | cons b bs ih =>
    rcases h.area_eq with ⟨-,-,harea⟩ | ⟨hi,-,hlt,hl,harea⟩
    · rw [harea,hinge_of_le hv,mul_zero]
    · rw [harea,hinge_of_le hv,hinge_of_le (hv.trans hlt.le),ih hl (hv.trans hlt.le)]
      ring

theorem climb_eq_area (h : Ladder lo bs) (v : K) : climb lo bs v = area lo bs v := by
  induction bs generalizing lo with
  | nil => rfl
  | cons b bs ih =>
    rcases le_or_gt v lo with hv | hv
    · rw [climb_of_le hv,area_of_le h hv]
    · rcases h.area_eq with ⟨hb,-,harea⟩ | ⟨hi,hb,hlt,hl,harea⟩
      · rw [climb_unbounded bs hb hv,harea,hinge_of_ge hv.le]
      · rw [harea,hinge_of_ge hv.le]
        rcases lt_or_ge v hi with hlow | hhigh
        · rw [climb_within bs hb hv hlow,hinge_of_le hlow.le,area_of_le hl hlow.le]
          ring
        · rw [climb_past bs hb hv hhigh,hinge_of_ge hhigh,ih hl]
          ring

theorem le_area_sub (h : Ladder lo bs) {low : K} (hs : ∀ b ∈ bs, low ≤ b.slope) {v w : K} (hv : v ≤ w) :
    low*(hinge lo w - hinge lo v) ≤ area lo bs w - area lo bs v := by
  induction bs generalizing lo with
  | nil => exact h.elim
  | cons b bs ih =>
    have hlow := hs b List.mem_cons_self
    rcases h.area_eq with ⟨-,-,harea⟩ | ⟨hi,-,hlt,hl,harea⟩
    · have hpart := mul_le_mul_of_nonneg_right hlow (sub_nonneg.mpr (hinge_mono lo hv))
      rw [harea,harea]
      linarith
    · have hpart := mul_le_mul_of_nonneg_right hlow (sub_nonneg.mpr (hinge_sub_mono hlt.le hv))
      have hrest := ih hl fun b hb => hs b (List.mem_cons_of_mem _ hb)
      rw [harea,harea]
      linarith

theorem area_sub_le (h : Ladder lo bs) {high : K} (hs : ∀ b ∈ bs, b.slope ≤ high) {v w : K} (hv : v ≤ w) :
    area lo bs w - area lo bs v ≤ high*(hinge lo w - hinge lo v) := by
  have hs' : ∀ b ∈ flip bs, -high ≤ b.slope := by
    intro b hb
    obtain ⟨c,hc,rfl⟩ := List.mem_map.mp hb
    exact neg_le_neg (hs c hc)
  have := le_area_sub h.flip hs' hv
  rw [area_flip,area_flip] at this
  linarith

theorem area_sub_inside {pre : List (Band K)} (h : Ladder lo (pre ++ b :: bs)) {v w : K}
    (hstart : startAfter lo pre ≤ v) (hv : v ≤ w) (hend : ∀ hi ∈ b.bound, w ≤ hi) :
    area lo (pre ++ b :: bs) w - area lo (pre ++ b :: bs) v = b.slope*(w-v) := by
  induction pre generalizing lo with
  | nil =>
    rw [List.nil_append] at h ⊢
    rw [startAfter] at hstart
    rcases h.area_eq with ⟨-,-,harea⟩ | ⟨hi,hb,hlt,hl,harea⟩
    · rw [harea,harea,hinge_of_ge hstart,hinge_of_ge (hstart.trans hv)]
      ring
    · have hw := hend hi hb
      rw [harea,harea,hinge_of_ge hstart,hinge_of_ge (hstart.trans hv),hinge_of_le hw,hinge_of_le (hv.trans hw),
        area_of_le hl hw,area_of_le hl (hv.trans hw)]
      ring
  | cons c pre ih =>
    rw [List.cons_append] at h ⊢
    rcases h.area_eq with ⟨-,hnil,-⟩ | ⟨hi,hc,hlt,hl,harea⟩
    · exact absurd hnil (by simp)
    · rw [startAfter,hc,Option.getD_some] at hstart
      have hhi : hi ≤ v := hl.le_startAfter.trans hstart
      rw [harea,harea,hinge_of_ge (hlt.le.trans hhi),hinge_of_ge hhi,
        hinge_of_ge (hlt.le.trans (hhi.trans hv)),hinge_of_ge (hhi.trans hv)]
      linarith [ih hl hstart]

end Area

section Convex
variable {lo v w : K} {bs : List (Band K)}

theorem area_above_line (h : Ladder lo bs) (hlo : 0 ≤ lo) (hs : bs.Pairwise (·.slope ≤ ·.slope)) {q : K}
    (hq : ∀ b ∈ bs, q ≤ b.slope) (hv : 0 ≤ v) (hw : 0 ≤ w) :
    (area lo bs v - q*hinge lo v) + (area lo bs w - q*hinge lo w) ≤
      area lo bs (v+w) - q*hinge lo (v+w) := by
  induction bs generalizing lo q with
  | nil => exact h.elim
  | cons b bs ih =>
    have hslope := mul_le_mul_of_nonneg_left (hinge_add_le hlo hv hw)
      (sub_nonneg.mpr (hq b List.mem_cons_self))
    rcases h.area_eq with ⟨-,-,harea⟩ | ⟨hi,-,hlt,hl,harea⟩
    · rw [harea,harea,harea]
      linarith
    · obtain ⟨hhead,htail⟩ := List.pairwise_cons.mp hs
      have hrest := ih hl (hlo.trans hlt.le) htail hhead
      rw [harea,harea,harea]
      linarith

theorem area_add_le (h : Ladder 0 bs) (hs : bs.Pairwise (·.slope ≤ ·.slope)) (hv : 0 ≤ v) (hw : 0 ≤ w) :
    area 0 bs v + area 0 bs w ≤ area 0 bs (v+w) := by
  cases bs with
  | nil => exact h.elim
  | cons b bs =>
    have hhead : ∀ c ∈ b :: bs, b.slope ≤ c.slope := by
      intro c hc
      rcases List.mem_cons.mp hc with rfl | hc
      · exact le_rfl
      · exact (List.pairwise_cons.mp hs).1 c hc
    have := area_above_line h le_rfl hs hhead hv hw
    rw [hinge_of_ge hv,hinge_of_ge hw,hinge_of_ge (add_nonneg hv hw)] at this
    linarith

theorem le_area_add (h : Ladder 0 bs) (hs : bs.Pairwise (fun b c => c.slope ≤ b.slope)) (hv : 0 ≤ v)
    (hw : 0 ≤ w) : area 0 bs (v+w) ≤ area 0 bs v + area 0 bs w := by
  have hs' : (flip bs).Pairwise (·.slope ≤ ·.slope) := by
    refine List.pairwise_map.mpr (hs.imp fun hbc => ?_)
    exact neg_le_neg hbc
  have := area_add_le h.flip hs' hv hw
  rw [area_flip,area_flip,area_flip] at this
  linarith

end Convex

section Arbitrary

variable {top prev acc slope : K}

theorem line_nonneg {hi : K} (htop : top < hi) (hs : 0 ≤ slope)
    (h : ∀ v, top < v → v < hi → 0 ≤ acc + slope*(v-prev)) : 0 ≤ acc + slope*(top-prev) := by
  refine le_of_forall_pos_le_add fun ε hε => ?_
  have hpos : 0 < slope+1 := by linarith
  have hstep : 0 < ε/(slope+1) := div_pos hε hpos
  obtain ⟨v,hv,hv'⟩ := exists_between (lt_min htop (lt_add_of_pos_right top hstep))
  obtain ⟨hvhi,hvstep⟩ := lt_min_iff.mp hv'
  have hline := h v hv hvhi
  have hgain : slope*(v-top) ≤ ε := by
    calc slope*(v-top) ≤ (slope+1)*(ε/(slope+1)) :=
          mul_le_mul (by linarith) (by linarith) (by linarith) hpos.le
      _ = ε := mul_div_cancel₀ ε hpos.ne'
  linarith

theorem line_mono (hs : 0 ≤ slope) {v w : K} (h : v ≤ w) : acc + slope*(v-prev) ≤ acc + slope*(w-prev) := by
  have := mul_le_mul_of_nonneg_left (sub_le_sub_right h prev) hs
  linarith

theorem rises_forever (hs : 0 ≤ slope) :
    Rises top (fun v => acc + slope*(v-prev)) ↔ 0 ≤ acc + slope*(top-prev) := by
  constructor
  · intro h
    exact line_nonneg (lt_add_one top) hs fun v hv _ => h.1 v hv
  · intro h
    exact ⟨fun v hv => h.trans (line_mono hs hv.le),fun v w _ hw => line_mono hs hw⟩

theorem rises_line {hi : K} (htop : top < hi) (hs : 0 ≤ slope) {g rest : K → K}
    (hline : ∀ v, top < v → v < hi → g v = acc + slope*(v-prev)) (hend : rest hi = 0)
    (hrest : ∀ v, hi ≤ v → g v = acc + slope*(hi-prev) + rest v) :
    Rises top g ↔ 0 ≤ acc + slope*(top-prev) ∧ Rises hi rest := by
  constructor
  · rintro ⟨hpos,hmono⟩
    refine ⟨line_nonneg htop hs fun v hv hv' => hline v hv hv' ▸ hpos v hv,fun v hv => ?_,fun v w hv hw => ?_⟩
    · have := hmono hi v htop hv.le
      rw [hrest hi le_rfl,hrest v hv.le,hend] at this
      linarith
    · have := hmono v w (htop.trans hv) hw
      rw [hrest v hv.le,hrest w (hv.le.trans hw)] at this
      linarith
  · rintro ⟨hpos,hpos',hmono⟩
    have hnonneg : ∀ v, hi ≤ v → 0 ≤ rest v := by
      intro v hv
      rcases hv.eq_or_lt with rfl | hv
      · exact hend.ge
      · exact hpos' v hv
    refine ⟨fun v hv => ?_,fun v w hv hw => ?_⟩
    · rcases lt_or_ge v hi with hlow | hhigh
      · rw [hline v hv hlow]
        exact hpos.trans (line_mono hs hv.le)
      · rw [hrest v hhigh]
        exact add_nonneg (hpos.trans (line_mono hs htop.le)) (hnonneg v hhigh)
    · rcases lt_or_ge w hi with hlow | hhigh
      · rw [hline v hv (hw.trans_lt hlow),hline w (hv.trans_le hw) hlow]
        exact line_mono hs hw
      · rw [hrest w hhigh]
        rcases lt_or_ge v hi with hlow | hhigh'
        · rw [hline v hv hlow]
          exact (line_mono hs hlow.le).trans (le_add_of_nonneg_right (hnonneg w hhigh))
        · rw [hrest v hhigh',add_le_add_iff_left]
          rcases hhigh'.eq_or_lt with rfl | hlt
          · exact hend.le.trans (hnonneg w hhigh)
          · exact hmono v w hlt hw

theorem rises_iff {bs : List (Band K)} (hs : ∀ b ∈ bs, 0 ≤ b.slope) (htop : prev ≤ top) :
    Rises top (fun v => acc + climb prev bs v) ↔ Steady top prev acc bs := by
  induction bs generalizing top prev acc with
  | nil =>
    rw [Steady]
    constructor
    · intro h
      simpa [climb] using h.1 (top+1) (by linarith)
    · intro h
      exact ⟨fun _ _ => by simpa [climb] using h,fun _ _ _ _ => le_rfl⟩
  | cons b bs ih =>
    have hslope := hs b List.mem_cons_self
    have hrest : ∀ c ∈ bs, 0 ≤ c.slope := fun c hc => hs c (List.mem_cons_of_mem _ hc)
    rw [Steady]
    cases hb : b.bound with
    | none =>
      have heq : ∀ v, top < v → acc + climb prev (b :: bs) v = acc + b.slope*(v-prev) := by
        intro v hv
        rw [climb_unbounded bs hb (htop.trans_lt hv)]
      dsimp only
      rw [← rises_forever hslope]
      exact ⟨fun h => h.congr heq,fun h => h.congr fun v hv => (heq v hv).symm⟩
    | some hi =>
      dsimp only
      split
      · -- the band ends below what was reached before
        rename_i hle
        have heq : ∀ v, top < v → acc + climb prev (b :: bs) v = acc + b.slope*(hi-prev) + climb hi bs v := by
          intro v hv
          rw [climb_past bs hb (htop.trans_lt hv) (hle.trans hv.le),add_assoc]
        rw [← ih hrest hle]
        exact ⟨fun h => h.congr heq,fun h => h.congr fun v hv => (heq v hv).symm⟩
      · rename_i hgt
        have hlt := not_le.mp hgt
        rw [← ih hrest le_rfl]
        refine rises_line hlt hslope (fun v hv hv' => ?_) ?_ fun v hv => ?_
        · rw [climb_within bs hb (htop.trans_lt hv) hv']
        · rw [zero_add,climb_of_le le_rfl]
        · rw [climb_past bs hb (htop.trans_lt (hlt.trans_le hv)) hv,zero_add,add_assoc]

end Arbitrary

end Bands

end CostConsumer.Foundation
