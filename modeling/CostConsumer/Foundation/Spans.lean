import Mathlib.Algebra.BigOperators.Group.List.Basic
import Mathlib.Order.Lattice
set_option autoImplicit false

namespace CostConsumer.Foundation

variable {α T : Type} [LinearOrder T] (start stop : α → T)

/-- The intervals run from `a` to `b`; none is empty. -/
def Spans : T → List α → T → Prop
  | a, [], b => a = b
  | a, e :: es, b => start e = a ∧ start e < stop e ∧ Spans (stop e) es b

namespace Spans

variable {start stop} {a b : T} {es : List α}

theorem snoc {e : α} (h : Spans start stop a es b) (hs : start e = b) (hlt : start e < stop e) :
    Spans start stop a (es ++ [e]) (stop e) := by
  induction es generalizing a with
  | nil =>
    simp only [Spans] at h
    exact ⟨hs.trans h.symm,hlt,rfl⟩
  | cons d es ih => exact ⟨h.1,h.2.1,ih h.2.2⟩

theorem le (h : Spans start stop a es b) : a ≤ b := by
  induction es generalizing a with
  | nil => exact le_of_eq h
  | cons d es ih =>
    obtain ⟨hd,hlt,h⟩ := h
    exact (hd ▸ hlt.le).trans (ih h)

theorem start_ge (h : Spans start stop a es b) : ∀ e ∈ es, a ≤ start e := by
  induction es generalizing a with
  | nil => simp
  | cons d es ih =>
    obtain ⟨hd,hlt,h⟩ := h
    intro e he
    rcases List.mem_cons.mp he with rfl | he
    · exact hd.ge
    · exact (hd ▸ hlt.le).trans (ih h e he)

theorem disjoint (h : Spans start stop a es b) : es.Pairwise (fun d e => stop d ≤ start e) := by
  induction es generalizing a with
  | nil => exact .nil
  | cons d es ih => exact .cons h.2.2.start_ge (ih h.2.2)

theorem covers (h : Spans start stop a es b) (t : T) :
    (∃ e ∈ es, start e ≤ t ∧ t < stop e) ↔ a ≤ t ∧ t < b := by
  induction es generalizing a with
  | nil =>
    simp only [Spans] at h
    subst h
    simp
  | cons d es ih =>
    obtain ⟨hd,hlt,h⟩ := h
    simp only [List.exists_mem_cons_iff,ih h]
    constructor
    · rintro (⟨h₁,h₂⟩ | ⟨h₁,h₂⟩)
      · exact ⟨hd ▸ h₁,h₂.trans_le h.le⟩
      · exact ⟨(hd ▸ hlt.le).trans h₁,h₂⟩
    · rintro ⟨h₁,h₂⟩
      rcases lt_or_ge t (stop d) with ht | ht
      · exact .inl ⟨hd.le.trans h₁,ht⟩
      · exact .inr ⟨ht,h₂⟩

theorem sum_length {M : Type} [AddCommGroup M] (h : Spans start stop a es b) (f : T → M) :
    (es.map (fun e => f (stop e) - f (start e))).sum = f b - f a := by
  induction es generalizing a with
  | nil =>
    simp only [Spans] at h
    simp [h]
  | cons d es ih =>
    obtain ⟨hd,-,h⟩ := h
    rw [List.map_cons,List.sum_cons,ih h,hd,sub_add_sub_cancel']

end Spans

end CostConsumer.Foundation
