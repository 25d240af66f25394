import Mathlib.Data.List.Nodup
import Mathlib.Data.Option.Basic
import Mathlib.Order.Defs.PartialOrder
set_option autoImplicit false

namespace CostConsumer.Foundation

variable {S L : Type}

/-- The states a machine reaches from `init` by steps that all meet `ok`. -/
inductive Reachable (step : S → L → Option S) (init : S → Prop) (ok : S → L → Prop) : S → Prop
  | start {s : S} : init s → Reachable step init ok s
  | next {s t : S} (l : L) : Reachable step init ok s → ok s l → step s l = some t →
      Reachable step init ok t

/-- The machine with no restriction on its steps. -/
def anyStep (_ : S) (_ : L) : Prop := True

namespace Reachable

variable {step : S → L → Option S} {init : S → Prop} {ok : S → L → Prop}

theorem invariant {P : S → Prop} (hi : ∀ s, init s → P s)
    (hs : ∀ s l t, P s → ok s l → step s l = some t → P t) {s : S}
    (h : Reachable step init ok s) : P s := by
  induction h with
  | start h => exact hi _ h
  | next l _ hok hst ih => exact hs _ l _ ih hok hst

theorem invariant_with {P Q : S → Prop} (hP : ∀ s, Reachable step init ok s → P s)
    (hi : ∀ s, init s → Q s)
    (hs : ∀ s l t, P s → P t → Q s → ok s l → step s l = some t → Q t) {s : S}
    (h : Reachable step init ok s) : Q s := by
  induction h with
  | start h => exact hi _ h
  | next l hr hok hst ih => exact hs _ l _ (hP _ hr) (hP _ (.next l hr hok hst)) ih hok hst

theorem trans {s t : S} (h : Reachable step init ok s) (h' : Reachable step (· = s) ok t) :
    Reachable step init ok t := by
  induction h' with
  | start he => exact he ▸ h
  | next l _ hok hst ih => exact .next l ih hok hst

theorem head {s t u : S} {l : L} (hok : ok s l) (hst : step s l = some t)
    (h : Reachable step (· = t) ok u) : Reachable step (· = s) ok u :=
  trans (.next l (.start rfl) hok hst) h

end Reachable

def runLabels (step : S → L → Option S) : S → List L → Option S
  | s, [] => some s
  | s, l :: ls => (step s l).bind (fun t => runLabels step t ls)

theorem runLabels_append (step : S → L → Option S) (s : S) (ls ls' : List L) :
    runLabels step s (ls ++ ls') = (runLabels step s ls).bind (runLabels step · ls') := by
  induction ls generalizing s with
  | nil => rfl
  | cons l ls ih =>
    rw [List.cons_append,runLabels,runLabels]
    cases step s l with
    | none => rfl
    | some t => exact ih t

theorem runLabels_total {step : S → L → Option S} {R : S → S → Prop} (hrefl : ∀ s, R s s)
    (htrans : ∀ s t u, R s t → R t u → R s u) {ls : List L}
    (h : ∀ l ∈ ls, ∀ s, ∃ t, step s l = some t ∧ R s t) (s : S) :
    ∃ t, runLabels step s ls = some t ∧ R s t := by
  induction ls generalizing s with
  | nil => exact ⟨s,rfl,hrefl s⟩
  | cons l ls ih =>
    obtain ⟨t,ht,hst⟩ := h l List.mem_cons_self s
    obtain ⟨u,hu,htu⟩ := ih (fun l hl => h l (List.mem_cons_of_mem _ hl)) t
    exact ⟨u,by rw [runLabels,ht,Option.bind_some,hu],htrans s t u hst htu⟩

theorem runLabels_writes {ι κ β : Type} [DecidableEq κ] {step : S → L → Option S} {R : S → S → Prop}
    (hrefl : ∀ s, R s s) (htrans : ∀ s t u, R s t → R t u → R s u) {get : S → κ → Option β} {label : ι → L}
    {key : ι → κ} {write : ι → Option β → β}
    (hstep : ∀ i s, ∃ t, step s (label i) = some t ∧ R s t ∧
      ∀ k, get t k = if key i = k then some (write i (get s k)) else get s k) (is : List ι) (s : S) :
    ∃ t, runLabels step s (is.map label) = some t ∧ R s t ∧
      (∀ k, (∀ i ∈ is, key i ≠ k) → get t k = get s k) ∧
      ((is.map key).Nodup → ∀ i ∈ is, get t (key i) = some (write i (get s (key i)))) := by
  induction is generalizing s with
  | nil => exact ⟨s,rfl,hrefl s,fun _ _ => rfl,fun _ _ hi => nomatch hi⟩
  | cons i is ih =>
    obtain ⟨u,hu,hR,hget⟩ := hstep i s
    obtain ⟨t,ht,hR',hsame,hnew⟩ := ih u
    refine ⟨t,by rw [List.map_cons,runLabels,hu,Option.bind_some,ht],htrans s u t hR hR',
      fun k hk => ?_,fun hnd j hj => ?_⟩
    · rw [hsame k fun j hj => hk j (List.mem_cons_of_mem _ hj),hget,if_neg (hk i List.mem_cons_self)]
    · obtain ⟨hfresh,hnd⟩ := List.nodup_cons.mp hnd
      rcases List.mem_cons.mp hj with rfl | hj
      · rw [hsame _ fun j hj h => hfresh (List.mem_map.mpr ⟨j,hj,h⟩),hget,if_pos rfl]
      · rw [hnew hnd j hj,hget,if_neg fun h => hfresh (List.mem_map.mpr ⟨j,hj,h.symm⟩)]

/-- What every step of one kind adds one to counts these steps. -/
theorem runLabels_countP {step : S → L → Option S} {f : S → Nat} {q : L → Bool}
    (h : ∀ s l t, step s l = some t → f t = f s + if q l then 1 else 0) {ls : List L} {s t : S}
    (hr : runLabels step s ls = some t) : f t = f s + ls.countP q := by
  induction ls generalizing s with
  | nil =>
    cases hr
    rfl
  | cons l ls ih =>
    obtain ⟨u,hu,hr⟩ := Option.bind_eq_some_iff.mp hr
    rw [ih hr,h s l u hu,List.countP_cons]
    omega

theorem runLabels_invariant {step : S → L → Option S} {P : S → Prop}
    (h : ∀ s l t, P s → step s l = some t → P t) {ls : List L} {s t : S} (hs : P s)
    (hr : runLabels step s ls = some t) : P t := by
  induction ls generalizing s with
  | nil =>
    cases hr
    exact hs
  | cons l ls ih =>
    obtain ⟨u,hu,hr⟩ := Option.bind_eq_some_iff.mp hr
    exact ih (h s l u hs hu) hr

/-- A run to where `P` holds has a step that brings it about. -/
theorem runLabels_enters {step : S → L → Option S} {P : S → Prop} {ls : List L} {s t : S} (hs : ¬ P s)
    (ht : P t) (hr : runLabels step s ls = some t) : ∃ before l after u v, ls = before ++ l :: after ∧
      runLabels step s before = some u ∧ ¬ P u ∧ step u l = some v ∧ P v ∧
      runLabels step v after = some t := by
  induction ls generalizing s with
  | nil =>
    cases hr
    exact absurd ht hs
  | cons l ls ih =>
    obtain ⟨v,hv,hr⟩ := Option.bind_eq_some_iff.mp hr
    by_cases hp : P v
    · exact ⟨[],l,ls,s,v,rfl,rfl,hs,hv,hp,hr⟩
    · obtain ⟨before,k,after,u,w,rfl,hb,h⟩ := ih hp hr
      exact ⟨l :: before,k,after,u,w,rfl,by rw [runLabels,hv,Option.bind_some,hb],h⟩

/-- Execute a list of labels, each of which must pass a check. -/
def runChecked (step : S → L → Option S) (check : S → L → Bool) : S → List L → Option S
  | s, [] => some s
  | s, l :: ls => if check s l then (step s l).bind (fun t => runChecked step check t ls) else none

/-- What steps that pass the check keep holds to the end of a run, or what a step that does
not pass it brings about and every step keeps. -/
theorem runLabels_checked_or {step : S → L → Option S} {check : S → L → Bool} {P Q : S → Prop}
    (hpass : ∀ s l t, P s → check s l = true → step s l = some t → P t)
    (hfail : ∀ s l t, P s → check s l = false → step s l = some t → Q t)
    (hkeep : ∀ s l t, Q s → step s l = some t → Q t) {ls : List L} {s t : S} (hs : P s)
    (h : runLabels step s ls = some t) :
    runChecked step check s ls = some t ∧ P t ∨ runChecked step check s ls = none ∧ Q t := by
  induction ls generalizing s with
  | nil =>
    cases h
    exact .inl ⟨rfl,hs⟩
  | cons l ls ih =>
    obtain ⟨u,hu,h⟩ := Option.bind_eq_some_iff.mp h
    rw [runChecked]
    cases hc : check s l with
    | true =>
      rw [if_pos rfl,hu,Option.bind_some]
      exact ih (hpass s l u hs hc hu) h
    | false =>
      rw [if_neg Bool.false_ne_true]
      exact .inr ⟨rfl,runLabels_invariant hkeep (hfail s l u hs hc hu) h⟩

theorem runLabels_of_checked {step : S → L → Option S} {check : S → L → Bool} {ls : List L} {s t : S}
    (h : runChecked step check s ls = some t) : runLabels step s ls = some t := by
  induction ls generalizing s with
  | nil => exact h
  | cons l ls ih =>
    unfold runChecked at h
    split at h
    · obtain ⟨u,hu,h⟩ := Option.bind_eq_some_iff.mp h
      rw [runLabels,hu,Option.bind_some,ih h]
    · cases h

/-- What a run ends with can be computed. -/
instance decidableExistsSome {α : Type} (o : Option α) (P : α → Prop) [DecidablePred P] :
    Decidable (∃ a, o = some a ∧ P a) :=
  match o with
  | none => isFalse fun ⟨_,ha,_⟩ => Option.some_ne_none _ ha.symm
  | some a => decidable_of_iff (P a) ⟨fun h => ⟨a,rfl,h⟩,fun ⟨_,ha,h⟩ => Option.some.inj ha ▸ h⟩

section Execute
variable {step : S → L → Option S} {init : S → Prop} {ok : S → L → Prop}

theorem Reachable.append_checked {check : S → L → Bool} (hc : ∀ s l, check s l = true → ok s l)
    {ls : List L} {s t : S} (h : Reachable step init ok s)
    (hr : runChecked step check s ls = some t) : Reachable step init ok t := by
  induction ls generalizing s with
  | nil => cases hr; exact h
  | cons l ls ih =>
    unfold runChecked at hr
    split at hr
    · rename_i hl
      cases hs : step s l with
      | none => simp [hs] at hr
      | some u =>
        simp only [hs,Option.bind_some] at hr
        exact ih (.next l h (hc _ _ hl) hs) hr
    · cases hr

theorem Reachable.append {ls : List L} {s t : S} (h : Reachable step init anyStep s)
    (hr : runLabels step s ls = some t) : Reachable step init anyStep t := by
  induction ls generalizing s with
  | nil => cases hr; exact h
  | cons l ls ih =>
    unfold runLabels at hr
    cases hs : step s l with
    | none => simp [hs] at hr
    | some u =>
      simp only [hs,Option.bind_some] at hr
      exact ih (.next l h trivial hs) hr

theorem Reachable.run_end {s : S} {ls : List L} {P : S → Prop} (hi : init s)
    (h : ∃ t, runLabels step s ls = some t ∧ P t) :
    ∃ t, runLabels step s ls = some t ∧ Reachable step init anyStep t ∧ P t := by
  obtain ⟨t,hr,hp⟩ := h
  exact ⟨t,hr,.append (.start hi) hr,hp⟩

theorem Reachable.exists_of_run (step : S → L → Option S) (init : S → Prop) (s : S) (ls : List L)
    (P : S → Prop) (hi : init s) (h : ∃ t, runLabels step s ls = some t ∧ P t) :
    ∃ t, Reachable step init anyStep t ∧ P t := by
  obtain ⟨t,hr,hp⟩ := h
  exact ⟨t,.append (.start hi) hr,hp⟩

theorem Reachable.exists_of_checked (step : S → L → Option S) (init : S → Prop)
    (check : S → L → Bool) (s : S) (ls : List L) (P : S → Prop)
    (hc : ∀ s l, check s l = true → ok s l) (hi : init s)
    (h : ∃ t, runChecked step check s ls = some t ∧ P t) : ∃ t, Reachable step init ok t ∧ P t := by
  obtain ⟨t,hr,hp⟩ := h
  exact ⟨t,.append_checked hc (.start hi) hr,hp⟩

end Execute

section Loops
variable {σ α : Type} [Preorder σ] {f : σ → α → σ}

theorem le_foldl (h : ∀ s a, s ≤ f s a) (l : List α) (s : σ) : s ≤ l.foldl f s := by
  induction l generalizing s with
  | nil => exact le_refl s
  | cons a l ih => exact le_trans (h s a) (ih (f s a))

theorem exists_le_foldl (h : ∀ s a, s ≤ f s a) {l : List α} {a : α} (ha : a ∈ l) (s : σ) :
    ∃ t, f t a ≤ l.foldl f s := by
  induction l generalizing s with
  | nil => cases ha
  | cons b l ih =>
    rcases List.mem_cons.mp ha with rfl | ha
    · exact ⟨s,le_foldl h l (f s a)⟩
    · exact ih ha (f s b)

end Loops

end CostConsumer.Foundation
