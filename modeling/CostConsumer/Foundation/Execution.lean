import CostConsumer.Foundation.Transition
import Mathlib.Data.Nat.Nth
set_option autoImplicit false

namespace CostConsumer.Foundation

variable {S L : Type}

/-- The machine that may also let an instant pass. -/
def pausing (step : S → L → Option S) (s : S) : Option L → Option S
  | none => some s
  | some l => step s l

structure Execution (step : S → L → Option S) (s : S) where
  state : Nat → S
  label : Nat → L
  start : state 0 = s
  next (i : Nat) : step (state i) (label i) = some (state (i+1))

/-- What happens at most a bounded number of times more often than `q` does
happens finitely often if `q` does. -/
theorem finite_of_count_le {p q : Nat → Prop} [DecidablePred p] [DecidablePred q] {k : Nat}
    (h : ∀ n, Nat.count p n ≤ k + Nat.count q n) (hq : {i | q i}.Finite) : {i | p i}.Finite := by
  by_contra hp
  have hcard : Nat.count q (Nat.nth p (k+hq.toFinset.card+1)) ≤ hq.toFinset.card :=
    Nat.count_le_card hq _
  have hcount := h (Nat.nth p (k+hq.toFinset.card+1))
  rw [Nat.count_nth_of_infinite hp] at hcount
  omega

namespace Execution

variable {step : S → L → Option S} {s : S}

/-- The rule of charges: where every `cost` is paid for by the potential or by
a `gain`, the costs are finitely many if the gains are. -/
theorem finite_of_charged (e : Execution step s) (inv : S → Prop) (potential : S → Nat) {cost gain : L → Bool}
    (h0 : inv s)
    (hs : ∀ i, inv (e.state i) → inv (e.state (i+1)) ∧
      (cost (e.label i)).toNat + potential (e.state (i+1)) ≤
        potential (e.state i) + (gain (e.label i)).toNat)
    (hg : {i | gain (e.label i) = true}.Finite) : {i | cost (e.label i) = true}.Finite := by
  have hrun : ∀ n, inv (e.state n) ∧
      Nat.count (fun i => cost (e.label i) = true) n + potential (e.state n) ≤
        potential s + Nat.count (fun i => gain (e.label i) = true) n := by
    intro n
    induction n with
    | zero => exact ⟨e.start.symm ▸ h0,by simp [e.start]⟩
    | succ n ih =>
      obtain ⟨hi,hc⟩ := hs n ih.1
      refine ⟨hi,?_⟩
      have htoNat : ∀ b : Bool, (if b = true then 1 else 0) = b.toNat := by decide
      rw [Nat.count_succ,Nat.count_succ,htoNat,htoNat]
      omega
  exact finite_of_count_le (fun n => Nat.le_trans (Nat.le_add_right _ _) (hrun n).2) hg

theorem of_cycle {ls : List L} (hne : 0 < ls.length) (h : runLabels step s ls = some s) :
    ∃ e : Execution (pausing step) s, ∀ i, e.label i = ls[i % ls.length]? := by
  have hlt : ∀ i, i % ls.length < ls.length := fun i => Nat.mod_lt i hne
  have hdef : ∀ k, ∃ t, runLabels step s (ls.take k) = some t := by
    intro k
    have happ := runLabels_append step s (ls.take k) (ls.drop k)
    rw [List.take_append_drop,h] at happ
    cases ht : runLabels step s (ls.take k) with
    | none => rw [ht] at happ; cases happ
    | some t => exact ⟨t,rfl⟩
  choose state hstate using hdef
  have hstep : ∀ k (hk : k < ls.length), step (state k) ls[k] = some (state (k+1)) := by
    intro k hk
    have happ := hstate (k+1)
    rw [List.take_add_one,List.getElem?_eq_getElem hk,Option.toList_some,runLabels_append,hstate k,
      Option.bind_some,runLabels] at happ
    cases ht : step (state k) ls[k] with
    | none => rw [ht] at happ; cases happ
    | some t => rw [ht] at happ; exact happ
  have hback : state ls.length = state 0 := by
    have h0 := hstate 0
    have hn := hstate ls.length
    rw [List.take_length,h] at hn
    exact (Option.some.inj hn).symm.trans (Option.some.inj h0)
  refine ⟨⟨fun i => state (i % ls.length),fun i => ls[i % ls.length]?,?_,?_⟩,fun i => rfl⟩
  · rw [Nat.zero_mod]
    exact (Option.some.inj (hstate 0)).symm
  · intro i
    rw [List.getElem?_eq_getElem (hlt i)]
    refine (hstep _ (hlt i)).trans (congrArg some ?_)
    rw [← Nat.mod_add_mod i ls.length 1]
    by_cases hi : i % ls.length + 1 = ls.length
    · rw [hi,Nat.mod_self,hback]
    · have hk := hlt i
      rw [Nat.mod_eq_of_lt (show i % ls.length + 1 < ls.length by omega)]

theorem of_run {ls : List L} {t : S} (h : runLabels step s ls = some t) :
    ∃ e : Execution (pausing step) s, ∀ i, e.label i = ls[i]? := by
  induction ls generalizing s with
  | nil => exact ⟨⟨fun _ => s,fun _ => none,rfl,fun _ => rfl⟩,fun _ => rfl⟩
  | cons l ls ih =>
    rw [runLabels] at h
    cases hl : step s l with
    | none => rw [hl] at h; cases h
    | some u =>
      rw [hl] at h
      obtain ⟨e,he⟩ := ih h
      refine ⟨⟨fun i => i.casesOn s e.state,fun i => i.casesOn (some l) e.label,rfl,?_⟩,?_⟩
      · intro i
        cases i with
        | zero => exact hl.trans (congrArg some e.start.symm)
        | succ i => exact e.next i
      · intro i
        cases i with
        | zero => rfl
        | succ i => exact he i

end Execution

end CostConsumer.Foundation
