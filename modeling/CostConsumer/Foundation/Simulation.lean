import CostConsumer.Foundation.Transition
set_option autoImplicit false

/-!
Forward simulation. A machine is followed by another one if whatever it does the
other can do in some steps of its own, so that the two stay related.
-/

namespace CostConsumer.Foundation

variable {C A K L : Type}

theorem runLabels_cons {step : A → L → Option A} {a b c : A} {l : L} {ls : List L} (h : step a l = some b)
    (hr : runLabels step b ls = some c) : runLabels step a (l :: ls) = some c := by
  rw [runLabels,h,Option.bind_some,hr]

theorem runLabels_trans {step : A → L → Option A} {a b c : A} {ls ls' : List L}
    (h : runLabels step a ls = some b) (hr : runLabels step b ls' = some c) :
    runLabels step a (ls ++ ls') = some c := by
  rw [runLabels_append,h,Option.bind_some,hr]

namespace Reachable

theorem simulated {step : C → K → Option C} {init : C → Prop} {ok : C → K → Prop}
    {step' : A → L → Option A} {init' : A → Prop} {ok' : A → L → Prop} {R : C → A → Prop}
    (hi : ∀ c, init c → ∃ a, init' a ∧ R c a)
    (hs : ∀ c l d a, Reachable step init ok c → Reachable step' init' ok' a → R c a → ok c l →
      step c l = some d → ∃ b, Reachable step' (· = a) ok' b ∧ R d b) {c : C}
    (h : Reachable step init ok c) : ∃ a, Reachable step' init' ok' a ∧ R c a := by
  induction h with
  | start h₀ =>
    obtain ⟨a,ha,hR⟩ := hi _ h₀
    exact ⟨a,.start ha,hR⟩
  | @next c d l hc hok hst ih =>
    obtain ⟨a,ha,hR⟩ := ih
    obtain ⟨b,hb,hR'⟩ := hs c l d a hc ha hR hok hst
    exact ⟨b,ha.trans hb,hR'⟩

variable {step : A → L → Option A} {ok : A → L → Prop}

theorem mono {init init' : A → Prop} {ok' : A → L → Prop} (hi : ∀ a, init a → init' a)
    (hok : ∀ a l, ok a l → ok' a l) {a : A} (h : Reachable step init ok a) :
    Reachable step init' ok' a := by
  induction h with
  | start h₀ => exact .start (hi _ h₀)
  | next l _ hl hst ih => exact .next l ih (hok _ l hl) hst

theorem one {a b : A} {l : L} (hok : ok a l) (h : step a l = some b) : Reachable step (· = a) ok b :=
  .next l (.start rfl) hok h

theorem foldl {ι : Type} {f : A → ι → A} (label : ι → L) {is : List ι} {a : A}
    (h : ∀ pre i post, is = pre ++ i :: post →
      ok (pre.foldl f a) (label i) ∧ step (pre.foldl f a) (label i) = some (f (pre.foldl f a) i)) :
    Reachable step (· = a) ok (is.foldl f a) := by
  induction is generalizing a with
  | nil => exact .start rfl
  | cons i is ih =>
    obtain ⟨hok,hst⟩ := h [] i is rfl
    refine head hok hst (ih fun pre j post hj => ?_)
    exact h (i :: pre) j post (by rw [hj]; rfl)

end Reachable

end CostConsumer.Foundation
