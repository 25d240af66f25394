import Mathlib.Algebra.BigOperators.Group.List.Basic
import Mathlib.Tactic.Linarith
set_option autoImplicit false

/-!
A stretch of time that is reported piece by piece: every report starts where the one
before ended. A report may count less than its piece, and reports may get lost.
-/

namespace CostConsumer.Foundation

/-- The reports lead from `a` to `b`; a piece may be empty. -/
def Relay {α K : Type} [LE K] (since now : α → K) : K → List α → K → Prop
  | a, [], b => a = b
  | a, e :: es, b => since e = a ∧ since e ≤ now e ∧ Relay since now (now e) es b

namespace Relay

variable {α K : Type}

theorem snoc [LE K] {since now : α → K} {a b : K} {es : List α} {e : α} (h : Relay since now a es b)
    (hs : since e = b) (hle : since e ≤ now e) : Relay since now a (es ++ [e]) (now e) := by
  induction es generalizing a with
  | nil => exact ⟨hs.trans h.symm,hle,rfl⟩
  | cons d es ih => exact ⟨h.1,h.2.1,ih h.2.2⟩

theorem le_of_mem [LE K] {since now : α → K} {a b : K} {es : List α} (h : Relay since now a es b) :
    ∀ e ∈ es, since e ≤ now e := by
  induction es generalizing a with
  | nil => exact fun e he => nomatch he
  | cons d es ih => exact List.forall_mem_cons.mpr ⟨h.2.1,ih h.2.2⟩

def counted [AddMonoid K] (kept : α → Bool) (count : α → K) (es : List α) : K :=
  ((es.filter kept).map count).sum

theorem counted_cons [AddMonoid K] (kept : α → Bool) (count : α → K) (e : α) (es : List α) :
    counted kept count (e :: es) = (if kept e then count e else 0) + counted kept count es := by
  unfold counted
  cases hk : kept e with
  | true => rw [List.filter_cons_of_pos hk,List.map_cons,List.sum_cons,if_pos rfl]
  | false => rw [List.filter_cons_of_neg (by simp [hk]),if_neg (by simp),zero_add]

section Counted
variable [Field K] [LinearOrder K] [IsStrictOrderedRing K] {since now count : α → K}
  {kept : α → Bool} {a b : K} {es : List α}

theorem counted_le (h : Relay since now a es b) (hc : ∀ e ∈ es, count e ≤ now e - since e) :
    counted kept count es ≤ b-a := by
  induction es generalizing a with
  | nil =>
    simp only [Relay] at h
    simp [counted,h]
  | cons e es ih =>
    obtain ⟨hs,hle,h⟩ := h
    have hrest := ih h fun d hd => hc d (List.mem_cons_of_mem _ hd)
    have he := hc e List.mem_cons_self
    rw [counted_cons]
    split <;> linarith

/-- All time is counted exactly when every report that is kept counts its piece in
full, and the pieces of the others are empty. -/
theorem counted_eq_iff (h : Relay since now a es b) (hc : ∀ e ∈ es, count e ≤ now e - since e) :
    counted kept count es = b-a ↔
      ∀ e ∈ es, if kept e then count e = now e - since e else since e = now e := by
  induction es generalizing a with
  | nil =>
    simp only [Relay] at h
    simp [counted,h]
  | cons e es ih =>
    obtain ⟨hs,hle,h⟩ := h
    have hcs : ∀ d ∈ es, count d ≤ now d - since d := fun d hd => hc d (List.mem_cons_of_mem _ hd)
    have hrest : counted kept count es ≤ b - now e := counted_le h hcs
    have he := hc e List.mem_cons_self
    rw [List.forall_mem_cons,← ih h hcs,counted_cons]
    cases kept e with
    | true =>
      simp only [if_true]
      constructor
      · intro heq
        constructor <;> linarith
      · rintro ⟨h₁,h₂⟩
        linarith
    | false =>
      simp only [Bool.false_eq_true,if_false]
      constructor
      · intro heq
        constructor <;> linarith
      · rintro ⟨h₁,h₂⟩
        linarith

end Counted

end Relay

end CostConsumer.Foundation
