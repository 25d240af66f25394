import Mathlib.Data.List.Sort
set_option autoImplicit false

namespace CostConsumer.Foundation

variable {α β κ : Type} [LinearOrder κ]

def newest (time : α → κ) (l : List α) : Option α :=
  (l.insertionSort (fun a b => time b ≤ time a)).head?

variable {time : α → κ}

theorem newest_cons (a : α) (l : List α) :
    newest time (a :: l) = match newest time l with
      | none => some a
      | some m => if time m ≤ time a then some a else some m := by
  unfold newest
  rw [List.insertionSort_cons]
  cases l.insertionSort (fun a b => time b ≤ time a) with
  | nil => rfl
  | cons m ms =>
    rw [List.orderedInsert_cons]
    by_cases h : time m ≤ time a <;> simp [h]

theorem mem_of_newest {l : List α} {a : α} (h : newest time l = some a) : a ∈ l := by
  simpa using List.mem_of_mem_head? h

theorem newest_eq_none {l : List α} : newest time l = none ↔ l = [] := by
  rw [newest,List.head?_eq_none_iff]
  exact ⟨fun h => by simpa using congrArg List.length h,fun h => by rw [h]; rfl⟩

theorem newest_eq_some {l : List α} {a : α} :
    newest time l = some a ↔
      ∃ l₁ l₂, l = l₁ ++ a :: l₂ ∧ (∀ x ∈ l₁, time x < time a) ∧ ∀ x ∈ l₂, time x ≤ time a := by
  induction l generalizing a with
  | nil => simp [newest]
  | cons b l ih =>
    rw [newest_cons]
    constructor
    · intro h
      cases hm : newest time l with
      | none =>
        rw [newest_eq_none] at hm
        simp only [hm,newest,List.insertionSort_nil,List.head?_nil,Option.some.injEq] at h
        exact ⟨[],[],by rw [hm,h]; rfl,by simp,by simp⟩
      | some m =>
        obtain ⟨l₁,l₂,rfl,h₁,h₂⟩ := ih.mp hm
        simp only [hm] at h
        split at h
        · rename_i hle
          cases h
          refine ⟨[],_,rfl,by simp,fun x hx => ?_⟩
          rcases List.mem_append.mp hx with hx | hx
          · exact (h₁ x hx).le.trans hle
          · rcases List.mem_cons.mp hx with rfl | hx
            · exact hle
            · exact (h₂ x hx).trans hle
        · rename_i hlt
          cases h
          refine ⟨b :: l₁,l₂,rfl,fun x hx => ?_,h₂⟩
          rcases List.mem_cons.mp hx with rfl | hx
          · exact not_le.mp hlt
          · exact h₁ x hx
    · rintro ⟨l₁,l₂,heq,h₁,h₂⟩
      cases l₁ with
      | nil =>
        cases heq
        cases hm : newest time l with
        | none => rfl
        | some m => simp only [if_pos (h₂ m (mem_of_newest hm))]
      | cons c l₁ =>
        cases heq
        rw [ih.mpr ⟨l₁,l₂,rfl,fun x hx => h₁ x (List.mem_cons_of_mem _ hx),h₂⟩]
        simp only [if_neg (not_le.mpr (h₁ b List.mem_cons_self))]

theorem newest_sublist {l l' : List α} {a : α} (hs : l'.Sublist l) (hnd : l.Nodup)
    (h : newest time l = some a) (ha : a ∈ l') : newest time l' = some a := by
  obtain ⟨l₁,l₂,rfl,h₁,h₂⟩ := newest_eq_some.mp h
  obtain ⟨-,hnd₂,hdisj⟩ := List.nodup_append.mp hnd
  obtain ⟨l₁',l₂',rfl,hs₁,hs₂⟩ := List.sublist_append_iff.mp hs
  have ha₂ : a ∈ l₂' := by
    rcases List.mem_append.mp ha with ha | ha
    · exact absurd rfl (hdisj a (hs₁.subset ha) a List.mem_cons_self)
    · exact ha
  rcases List.sublist_cons_iff.mp hs₂ with hs₂ | ⟨m,rfl,hm⟩
  · exact absurd (hs₂.subset ha₂) (List.nodup_cons.mp hnd₂).1
  · exact newest_eq_some.mpr
      ⟨l₁',m,rfl,fun x hx => h₁ x (hs₁.subset hx),fun x hx => h₂ x (hm.subset hx)⟩

theorem newest_map {time' : β → κ} {f : α → β} (hf : ∀ a, time' (f a) = time a) (l : List α) :
    newest time' (l.map f) = (newest time l).map f := by
  induction l with
  | nil => rfl
  | cons a l ih =>
    rw [List.map_cons,newest_cons,newest_cons,ih]
    cases newest time l with
    | none => rfl
    | some m =>
      simp only [Option.map_some,hf]
      split <;> rfl

end CostConsumer.Foundation
