import Mathlib.Order.Lattice
import Mathlib.Order.Defs.LinearOrder
import Mathlib.Algebra.BigOperators.Group.List.Basic
import Mathlib.Algebra.Order.Group.Int
import Mathlib.Tactic.Linarith
import Mathlib.Tactic.Ring
set_option autoImplicit false

namespace CostConsumer.Foundation

/-- Every point has a window `[start t, finish t)` that contains it, and all
points of a window have the same one. -/
structure Tiling (T : Type) [LinearOrder T] where
  start : T → T
  finish : T → T
  start_le : ∀ t, start t ≤ t
  lt_finish : ∀ t, t < finish t
  same : ∀ t u, start t ≤ u → u < finish t → start u = start t ∧ finish u = finish t

namespace Tiling

variable {T : Type} [LinearOrder T] (w : Tiling T)

theorem start_lt_finish (t : T) : w.start t < w.finish t :=
  lt_of_le_of_lt (w.start_le t) (w.lt_finish t)

theorem start_start (t : T) : w.start (w.start t) = w.start t :=
  (w.same t _ le_rfl (w.start_lt_finish t)).1

theorem finish_start (t : T) : w.finish (w.start t) = w.finish t :=
  (w.same t _ le_rfl (w.start_lt_finish t)).2

theorem eq_of_mem {t u x : T} (ht : w.start t ≤ x) (ht' : x < w.finish t)
    (hu : w.start u ≤ x) (hu' : x < w.finish u) :
    w.start t = w.start u ∧ w.finish t = w.finish u := by
  obtain ⟨h₁,h₂⟩ := w.same t x ht ht'
  obtain ⟨h₃,h₄⟩ := w.same u x hu hu'
  exact ⟨h₁.symm.trans h₃,h₂.symm.trans h₄⟩

theorem finish_eq_of_start_eq {t u : T} (h : w.start t = w.start u) :
    w.finish t = w.finish u := by
  rw [← w.finish_start t,h,w.finish_start]

theorem start_finish (t : T) : w.start (w.finish t) = w.finish t := by
  refine le_antisymm (w.start_le _) (le_of_not_gt fun h => ?_)
  -- otherwise the larger of the two starts would lie in both windows
  have hx : max (w.start t) (w.start (w.finish t)) < w.finish t :=
    max_lt (w.start_lt_finish t) h
  have he := w.eq_of_mem (le_max_left _ _) hx (le_max_right _ _)
    (hx.trans (w.lt_finish _))
  exact absurd (w.lt_finish (w.finish t)) (by rw [← he.2]; exact lt_irrefl _)

def run : T → Nat → List (T × T)
  | _, 0 => []
  | t, n+1 => (w.start t,w.finish t) :: run (w.finish t) n

def stop : T → Nat → T
  | t, 0 => w.start t
  | t, n+1 => stop (w.finish t) n

theorem start_le_stop (t : T) (n : Nat) : w.start t ≤ w.stop t n := by
  induction n generalizing t with
  | zero => exact le_rfl
  | succ n ih =>
    have h := ih (w.finish t)
    rw [w.start_finish] at h
    exact (w.start_lt_finish t).le.trans h

theorem start_lt_stop (t : T) {n : Nat} (hn : 0 < n) : w.start t < w.stop t n := by
  obtain ⟨n,rfl⟩ := Nat.exists_eq_succ_of_ne_zero hn.ne'
  have h := w.start_le_stop (w.finish t) n
  rw [w.start_finish] at h
  exact (w.start_lt_finish t).trans_le h

def Holds (v : T × T) (a b : T) : Prop := v.1 ≤ a ∧ b ≤ v.2

instance (v : T × T) (a b : T) : Decidable (Holds v a b) :=
  inferInstanceAs (Decidable (_ ∧ _))

/-- A window of the run ends at `a` and the next one starts there. -/
def Inner (t : T) (n : Nat) (a : T) : Prop :=
  w.start t < a ∧ a < w.stop t n ∧ w.start a = a

theorem holds_none_of_lt {t a b : T} (n : Nat) (h : a < w.start t) :
    (w.run t n).countP (fun v => Holds v a b) = 0 := by
  induction n generalizing t with
  | zero => rfl
  | succ n ih =>
    have hf : a < w.start (w.finish t) := by
      rw [w.start_finish]; exact h.trans (w.start_lt_finish t)
    rw [run,List.countP_cons_of_neg,ih hf]
    simp [Holds,not_le_of_gt h]

/-- How many windows of a run hold an interval: one if it lies in one window,
none if it crosses a boundary. An empty interval on an inner boundary lies in
two windows and is left out. -/
theorem holds_count {t a b : T} {n : Nat} (hs : w.start t ≤ a) (hab : a ≤ b)
    (he : b ≤ w.stop t n) (hn : 0 < n) (hz : ¬ (a = b ∧ w.Inner t n a)) :
    (w.run t n).countP (fun v => Holds v a b) = if b ≤ w.finish a then 1 else 0 := by
  induction n generalizing t with
  | zero => omega
  | succ n ih =>
    by_cases ha : a < w.finish t
    · -- the first window is the one of `a`; all later ones start after it
      have hf := (w.same t a hs ha).2
      have h0 : (w.run (w.finish t) n).countP (fun v => Holds v a b) = 0 := by
        apply w.holds_none_of_lt
        rw [w.start_finish]
        exact ha
      rw [run,List.countP_cons,h0,hf]
      simp [Holds,hs]
    · have ha' := le_of_not_gt ha
      by_cases hb : b ≤ w.finish t
      · -- an empty interval at the end of the first window, which must be the last
        have hat : a = w.finish t := le_antisymm (hab.trans hb) ha'
        have heq : a = b := le_antisymm hab (hb.trans ha')
        have hn0 : n = 0 := by
          by_contra hne
          refine hz ⟨heq,(w.start_lt_finish t).trans_le ha',?_,?_⟩
          · have h := w.start_lt_stop (w.finish t) (Nat.pos_of_ne_zero hne)
            rw [w.start_finish] at h
            simpa [stop,hat] using h
          · rw [hat,w.start_finish]
        subst hn0
        have hbf : b ≤ w.finish a := heq ▸ (w.lt_finish a).le
        simp [run,Holds,hs,hb,hbf]
      · have hn' : 0 < n := by
          refine Nat.pos_of_ne_zero fun hne => ?_
          subst hne
          simp only [stop,w.start_finish] at he
          exact hb he
        have hrest := ih (t := w.finish t) (by rw [w.start_finish]; exact ha') he hn'
          (fun h => hz ⟨h.1,hs.lt_of_ne (fun hta => ?_),h.2.2⟩)
        · rw [run,List.countP_cons_of_neg,hrest]
          simp [Holds,hb]
        · exact ha (hta ▸ w.start_lt_finish t)

theorem run_bounds {t : T} {n : Nat} {v : T × T} (h : v ∈ w.run t n) :
    w.start t ≤ v.1 ∧ v.2 ≤ w.stop t n := by
  induction n generalizing t with
  | zero => simp [run] at h
  | succ n ih =>
    rcases List.mem_cons.mp h with rfl | h
    · have hs := w.start_le_stop (w.finish t) n
      rw [w.start_finish] at hs
      exact ⟨le_rfl,hs⟩
    · obtain ⟨h₁,h₂⟩ := ih h
      rw [w.start_finish] at h₁
      exact ⟨(w.start_lt_finish t).le.trans h₁,h₂⟩

theorem inner_mem {t a : T} {n : Nat} (h : w.Inner t n a) :
    (∃ v ∈ w.run t n, v.2 = a) ∧ ∃ v ∈ w.run t n, v.1 = a := by
  obtain ⟨hs,he,hb⟩ := h
  induction n generalizing t with
  | zero => exact absurd (hs.trans he) (lt_irrefl _)
  | succ n ih =>
    rcases lt_trichotomy a (w.finish t) with ha | ha | ha
    · rw [(w.same t a hs.le ha).1] at hb
      exact absurd hb hs.ne
    · cases n with
      | zero =>
        simp only [stop,w.start_finish] at he
        exact absurd he (by rw [ha]; exact lt_irrefl _)
      | succ n =>
        refine ⟨⟨_,List.mem_cons_self,ha.symm⟩,⟨_,List.mem_cons_of_mem _ List.mem_cons_self,?_⟩⟩
        rw [ha,w.start_finish]
    · obtain ⟨⟨v,hv,hv'⟩,⟨u,hu,hu'⟩⟩ := ih (t := w.finish t) (by rwa [w.start_finish]) he
      exact ⟨⟨v,List.mem_cons_of_mem _ hv,hv'⟩,⟨u,List.mem_cons_of_mem _ hu,hu'⟩⟩

def uniform (N : Int) (hN : 0 < N) : Tiling Int where
  start n := n/N*N
  finish n := n/N*N+N
  start_le n := Int.ediv_mul_le n hN.ne'
  lt_finish n := by
    have h := Int.lt_ediv_add_one_mul_self n hN
    rwa [Int.add_mul,Int.one_mul] at h
  same t u h₁ h₂ := by
    have h : u/N = t/N := by
      refine le_antisymm ?_ ((Int.le_ediv_iff_mul_le hN).mpr h₁)
      refine Int.lt_add_one_iff.mp ((Int.ediv_lt_iff_lt_mul hN).mpr ?_)
      rwa [Int.add_mul,Int.one_mul]
    rw [h]
    exact ⟨rfl,rfl⟩

/-- Each window cut into slots of length `N` from its start; the last slot is
shorter where `N` does not divide the window. -/
def slots (w : Tiling Int) (N : Int) (hN : 0 < N) : Tiling Int where
  start n := w.start n + (n - w.start n)/N*N
  finish n := min (w.start n + (n - w.start n)/N*N + N) (w.finish n)
  start_le n := by
    have h := (uniform N hN).start_le (n - w.start n)
    simp only [uniform] at h
    omega
  lt_finish n := by
    have h := (uniform N hN).lt_finish (n - w.start n)
    simp only [uniform] at h
    exact lt_min (by omega) (w.lt_finish n)
  same t u h₁ h₂ := by
    obtain ⟨h₃,h₄⟩ := lt_min_iff.mp h₂
    have hs := (uniform N hN).start_le (t - w.start t)
    have h0 : 0 ≤ (t - w.start t)/N*N :=
      Int.mul_nonneg (Int.ediv_nonneg (by have := w.start_le t; omega) hN.le) hN.le
    obtain ⟨hw₁,hw₂⟩ := w.same t u (by omega) h₄
    have hu := (uniform N hN).same (t - w.start t) (u - w.start t)
      (by simp only [uniform]; omega) (by simp only [uniform]; omega)
    simp only [uniform] at hu
    rw [hw₁,hw₂,hu.1]
    exact ⟨rfl,rfl⟩

theorem slots_of_le (w : Tiling Int) {n : Int} (hn : 0 < n) {t : Int} (h : w.finish t ≤ w.start t + n) :
    (w.slots n hn).start t = w.start t ∧ (w.slots n hn).finish t = w.finish t := by
  have hs := w.start_le t
  have hf := w.lt_finish t
  have hzero : (t - w.start t)/n = 0 := Int.ediv_eq_zero_of_lt (by omega) (by omega)
  simp only [slots,hzero]
  omega

theorem slots_one (w : Tiling Int) (t : Int) :
    (w.slots 1 Int.one_pos).start t = t ∧ (w.slots 1 Int.one_pos).finish t = t+1 := by
  have hf := w.lt_finish t
  simp only [slots,Int.ediv_one]
  omega

theorem slots_nested (w : Tiling Int) {n k : Int} (hn : 0 < n) (hk : 0 < k) (hnk : 0 < n*k) (t : Int) :
    (w.slots (n*k) hnk).start t ≤ (w.slots n hn).start t ∧
      (w.slots n hn).finish t ≤ (w.slots (n*k) hnk).finish t := by
  simp only [slots]
  rw [← Int.ediv_ediv_of_nonneg hn.le]
  generalize (t - w.start t)/n = q
  have hlow : q/k*k ≤ q := Int.ediv_mul_le q hk.ne'
  have hhigh : q+1 ≤ (q/k+1)*k := Int.lt_ediv_add_one_mul_self q hk
  have hstart : q/k*(n*k) ≤ q*n := by
    calc q/k*(n*k) = q/k*k*n := by ring
      _ ≤ q*n := Int.mul_le_mul_of_nonneg_right hlow hn.le
  have hfinish : q*n+n ≤ q/k*(n*k)+n*k := by
    calc q*n+n = (q+1)*n := by ring
      _ ≤ (q/k+1)*k*n := Int.mul_le_mul_of_nonneg_right hhigh hn.le
      _ = q/k*(n*k)+n*k := by ring
  omega

def scale (w : Tiling Int) (c : Int) (hc : 0 < c) : Tiling Int where
  start t := w.start (t/c)*c
  finish t := w.finish (t/c)*c
  start_le t := (Int.le_ediv_iff_mul_le hc).mp (w.start_le (t/c))
  lt_finish t := (Int.ediv_lt_iff_lt_mul hc).mp (w.lt_finish (t/c))
  same t u h₁ h₂ := by
    obtain ⟨hw₁,hw₂⟩ := w.same (t/c) (u/c) ((Int.le_ediv_iff_mul_le hc).mpr h₁)
      ((Int.ediv_lt_iff_lt_mul hc).mpr h₂)
    rw [hw₁,hw₂]
    exact ⟨rfl,rfl⟩

end Tiling

end CostConsumer.Foundation
