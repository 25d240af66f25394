import Mathlib.Algebra.BigOperators.Group.List.Basic
import Mathlib.Data.List.Dedup
import Mathlib.Algebra.Group.Nat.Defs
import Mathlib.Tactic.Abel
set_option autoImplicit false

namespace CostConsumer.Foundation

section Sums
variable {α β κ M : Type} [AddCommMonoid M]

theorem sum_ite_eq_countP (p : β → Bool) (m : M) (vs : List β) :
    (vs.map (fun v => if p v then m else 0)).sum = vs.countP p • m := by
  induction vs with
  | nil => simp
  | cons v vs ih =>
    rw [List.map_cons,List.sum_cons,ih,List.countP_cons]
    cases p v
    · simp
    · rw [if_pos rfl,if_pos rfl,succ_nsmul,add_comm]

theorem sum_selections (hit : β → α → Bool) (f : α → M) (vs : List β) (rows : List α) :
    (vs.map (fun v => ((rows.filter (hit v)).map f).sum)).sum =
      (rows.map (fun x => vs.countP (hit · x) • f x)).sum := by
  induction rows with
  | nil => simp
  | cons x rows ih =>
    have hsplit : ∀ v, (((x :: rows).filter (hit v)).map f).sum =
        (if hit v x then f x else 0) + ((rows.filter (hit v)).map f).sum := by
      intro v
      cases hv : hit v x <;> simp [hv]
    simp only [hsplit,List.sum_map_add,List.map_cons,List.sum_cons,ih,sum_ite_eq_countP]

theorem sum_selections_once {hit : β → α → Bool} {once : α → Bool} {vs : List β} {rows : List α}
    (h : ∀ x ∈ rows, vs.countP (hit · x) = if once x then 1 else 0) (f : α → M) :
    (vs.map (fun v => ((rows.filter (hit v)).map f).sum)).sum =
      ((rows.filter once).map f).sum := by
  rw [sum_selections]
  induction rows with
  | nil => rfl
  | cons x rows ih =>
    rw [List.map_cons,List.sum_cons,h x List.mem_cons_self,
      ih (fun y hy => h y (List.mem_cons_of_mem _ hy))]
    cases ho : once x with
    | true => rw [if_pos rfl,one_nsmul,List.filter_cons_of_pos ho,List.map_cons,List.sum_cons]
    | false =>
      rw [if_neg Bool.false_ne_true,zero_nsmul,zero_add,List.filter_cons_of_neg (ne_true_of_eq_false ho)]

/-- Two selections of rows differ by the rows that only one of them has. -/
theorem sum_selection_sub {G : Type} [AddCommGroup G] (f : α → G) (p q : α → Bool) (rows : List α) :
    ((rows.filter p).map f).sum = ((rows.filter q).map f).sum +
      (((rows.filter fun x => p x && !q x).map f).sum - ((rows.filter fun x => q x && !p x).map f).sum) := by
  induction rows with
  | nil => simp
  | cons x rows ih =>
    cases hp : p x <;> cases hq : q x <;> simp [hp,hq,ih] <;> abel

variable [DecidableEq κ]

/-- The groups of rows with one key, in the order of the keys' last rows. -/
def groupBy (key : α → κ) (rows : List α) : List (κ × List α) :=
  (rows.map key).dedup.map (fun k => (k,rows.filter (fun x => key x = k)))

theorem mem_groupBy (key : α → κ) {rows : List α} {x : α} (h : x ∈ rows) :
    ∃ g ∈ groupBy key rows, g.1 = key x ∧ x ∈ g.2 := by
  refine ⟨(key x,rows.filter (fun y => key y = key x)),?_,rfl,by simp [h]⟩
  exact List.mem_map_of_mem (List.mem_dedup.mpr (List.mem_map_of_mem h))

theorem groupBy_map (f : β → α) (key : α → κ) (rows : List β) :
    groupBy key (rows.map f) = (groupBy (fun x => key (f x)) rows).map (fun g => (g.1,g.2.map f)) := by
  simp only [groupBy,List.map_map,List.filter_map,Function.comp_def]

theorem sum_groupBy (key : α → κ) (P : κ → Bool) (f : α → M) (rows : List α) :
    (((groupBy key rows).filter (fun g => P g.1)).map (fun g => (g.2.map f).sum)).sum =
      ((rows.filter (fun x => P (key x))).map f).sum := by
  have hone : ∀ x ∈ rows, ((rows.map key).dedup.filter P).countP (fun k => key x = k) =
      if P (key x) then 1 else 0 := by
    intro x hx
    have hnd := (List.nodup_dedup (rows.map key)).filter P
    have hmem : key x ∈ (rows.map key).dedup.filter P ↔ P (key x) = true := by
      simp only [List.mem_filter,List.mem_dedup,and_iff_right_iff_imp]
      exact fun _ => List.mem_map_of_mem hx
    calc ((rows.map key).dedup.filter P).countP (fun k => key x = k)
        = ((rows.map key).dedup.filter P).count (key x) := by
          rw [List.count_eq_countP]
          simp only [beq_eq_decide,eq_comm]
      _ = if P (key x) then 1 else 0 := by simp only [hnd.count,hmem]
  rw [← sum_selections_once hone f,groupBy,List.filter_map,List.map_map]
  rfl

end Sums

section Joins
variable {α β : Type}

/-- Each row on the left with every row on the right it matches, or once with none. -/
def leftJoin (on : α → β → Bool) (rows : List α) (right : List β) : List (α × Option β) :=
  rows.flatMap (fun a => if (right.filter (on a)).isEmpty then [(a,none)]
    else (right.filter (on a)).map (fun b => (a,some b)))

theorem filter_eq_find? {p : β → Bool} {right : List β}
    (h : right.Pairwise (fun b b' => ¬ (p b = true ∧ p b' = true))) :
    right.filter p = (right.find? p).toList := by
  induction right with
  | nil => rfl
  | cons b right ih =>
    obtain ⟨hb,hr⟩ := List.pairwise_cons.mp h
    cases hp : p b with
    | false => simp [hp,ih hr]
    | true =>
      have hnone : right.filter p = [] := List.filter_eq_nil_iff.mpr fun b' hb' hp' => hb b' hb' ⟨hp,hp'⟩
      simp [hp,hnone]

theorem leftJoin_unique {on : α → β → Bool} {right : List β}
    (h : ∀ a, right.Pairwise (fun b b' => ¬ (on a b = true ∧ on a b' = true))) (rows : List α) :
    leftJoin on rows right = rows.map (fun a => (a,right.find? (on a))) := by
  rw [leftJoin,← List.flatMap_singleton' (rows.map _),List.flatMap_map]
  congr 1
  funext a
  rw [filter_eq_find? (h a)]
  cases right.find? (on a) <;> rfl

end Joins

end CostConsumer.Foundation
