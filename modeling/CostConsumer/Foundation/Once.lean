import Mathlib.Data.List.Induction
import Mathlib.Data.List.Nodup
set_option autoImplicit false

/-!
A receiver that takes each identity once. What it has taken is known by key and
digest: an element with a new key is taken, one with a known key and the same
digest is skipped, one with a known key and another digest stops the batch.
-/

namespace CostConsumer.Foundation.Once

variable {E K D : Type} [DecidableEq K]

/-- What is known once the elements of `fresh` were taken. -/
def noted (key : E → K) (digest : E → D) (seen : K → Option D) (fresh : List E) (k : K) :
    Option D :=
  match fresh.find? (fun e => key e = k) with
  | some e => some (digest e)
  | none => seen k

section Noted
variable {key : E → K} {digest : E → D} {seen : K → Option D} {fresh : List E} {e : E} {k : K}

theorem noted_eq_none :
    noted key digest seen fresh k = none ↔ (∀ e ∈ fresh, key e ≠ k) ∧ seen k = none := by
  unfold noted
  cases hf : fresh.find? (fun e => key e = k) with
  | none => simpa using fun _ => by simpa using hf
  | some e =>
    have he := List.find?_some hf
    simp only [decide_eq_true_eq] at he
    simp only [reduceCtorEq,false_iff,not_and]
    exact fun h => absurd he (h e (List.mem_of_find?_eq_some hf))

theorem noted_of_not_mem (h : ∀ e ∈ fresh, key e ≠ k) : noted key digest seen fresh k = seen k := by
  unfold noted
  rw [List.find?_eq_none.mpr (by simpa using h)]

theorem noted_of_mem (hnd : (fresh.map key).Nodup) (he : e ∈ fresh) :
    noted key digest seen fresh (key e) = some (digest e) := by
  unfold noted
  cases hf : fresh.find? (fun a => key a = key e) with
  | none => simpa using List.find?_eq_none.mp hf e he
  | some a =>
    have ha := List.find?_some hf
    simp only [decide_eq_true_eq] at ha
    rw [List.inj_on_of_nodup_map hnd (List.mem_of_find?_eq_some hf) he ha]

theorem noted_snoc (hn : noted key digest seen fresh (key e) = none) :
    noted key digest seen (fresh ++ [e]) k =
      if k = key e then some (digest e) else noted key digest seen fresh k := by
  obtain ⟨hf,-⟩ := noted_eq_none.mp hn
  unfold noted
  rw [List.find?_append]
  by_cases hk : k = key e
  · subst hk
    have hnone : fresh.find? (fun a => key a = key e) = none := by simpa using hf
    simp [hnone]
  · rw [if_neg hk]
    cases fresh.find? (fun e => key e = k) with
    | none => simp [Ne.symm hk]
    | some a => simp

theorem noted_eq_some {d : D} (h : noted key digest seen fresh k = some d) :
    (∃ e ∈ fresh, key e = k ∧ digest e = d) ∨ seen k = some d := by
  unfold noted at h
  split at h
  · rename_i e he
    exact .inl ⟨e,List.mem_of_find?_eq_some he,by simpa using List.find?_some he,Option.some.inj h⟩
  · exact .inr h

theorem noted_of_seen {d : D} (hnew : ∀ e ∈ fresh, seen (key e) = none) (h : seen k = some d) :
    noted key digest seen fresh k = some d := by
  rw [noted_of_not_mem,h]
  rintro e he rfl
  rw [hnew e he] at h
  cases h

theorem noted_append {more : List E} (h : ∀ e ∈ more, noted key digest seen fresh (key e) = none) :
    noted key digest seen (fresh ++ more) k =
      noted key digest (noted key digest seen fresh) more k := by
  by_cases hk : ∃ e ∈ more, key e = k
  · obtain ⟨e,he,rfl⟩ := hk
    have hnone : fresh.find? (fun a => key a = key e) = none := by
      simpa using (noted_eq_none.mp (h e he)).1
    unfold noted
    rw [List.find?_append,hnone]
    rfl
  · have hk' : ∀ e ∈ more, key e ≠ k := fun e he hek => hk ⟨e,he,hek⟩
    have hnone : more.find? (fun a => key a = k) = none := by simpa using hk'
    rw [noted_of_not_mem hk']
    unfold noted
    rw [List.find?_append,hnone,Option.or_none]

end Noted

variable [DecidableEq D]

section Definitions
variable (key : E → K) (digest : E → D)

def acceptOne (seen : K → Option D) (fresh : List E) (e : E) : Option (List E) :=
  match noted key digest seen fresh (key e) with
  | none => some (fresh ++ [e])
  | some d => if d = digest e then some fresh else none

/-- The elements a batch adds, unless it is stopped. -/
def accept (seen : K → Option D) (batch : List E) : Option (List E) :=
  batch.foldlM (acceptOne key digest seen) []

end Definitions

variable {key : E → K} {digest : E → D} {seen seen' : K → Option D} {batch fresh : List E} {e : E}

theorem accept_snoc :
    accept key digest seen (batch ++ [e]) =
      (accept key digest seen batch).bind (acceptOne key digest seen · e) := by
  simp [accept,List.foldlM_append]

theorem accept_snoc_new (h : accept key digest seen batch = some fresh)
    (hn : noted key digest seen fresh (key e) = none) :
    accept key digest seen (batch ++ [e]) = some (fresh ++ [e]) := by
  simp [accept_snoc,h,acceptOne,hn]

theorem accept_snoc_again (h : accept key digest seen batch = some fresh)
    (hn : noted key digest seen fresh (key e) = some (digest e)) :
    accept key digest seen (batch ++ [e]) = some fresh := by
  simp [accept_snoc,h,acceptOne,hn]

theorem of_accept_snoc (h : accept key digest seen (batch ++ [e]) = some fresh) :
    ∃ before, accept key digest seen batch = some before ∧
      (noted key digest seen before (key e) = none ∧ fresh = before ++ [e] ∨
        noted key digest seen before (key e) = some (digest e) ∧ fresh = before) := by
  rw [accept_snoc] at h
  obtain ⟨before,hb,ho⟩ := Option.bind_eq_some_iff.mp h
  refine ⟨before,hb,?_⟩
  unfold acceptOne at ho
  cases hn : noted key digest seen before (key e) with
  | none =>
    simp only [hn,Option.some.injEq] at ho
    exact .inl ⟨rfl,ho.symm⟩
  | some d =>
    simp only [hn] at ho
    split at ho
    · rename_i hd
      exact .inr ⟨by rw [hd],(Option.some.inj ho).symm⟩
    · cases ho

theorem accept_fresh (h : accept key digest seen batch = some fresh) :
    (fresh.map key).Nodup ∧ ∀ e ∈ fresh, e ∈ batch ∧ seen (key e) = none := by
  induction batch using List.reverseRecOn generalizing fresh with
  | nil =>
    cases h
    simp
  | append_singleton batch a ih =>
    obtain ⟨before,hb,hc⟩ := of_accept_snoc h
    obtain ⟨hnd,hin⟩ := ih hb
    rcases hc with ⟨hn,rfl⟩ | ⟨-,rfl⟩
    · obtain ⟨hnew,hseen⟩ := noted_eq_none.mp hn
      refine ⟨?_,fun e he => ?_⟩
      · rw [List.map_append,List.nodup_append]
        refine ⟨hnd,by simp,?_⟩
        simpa using hnew
      · rcases List.mem_append.mp he with he | he
        · exact ⟨List.mem_append_left _ (hin e he).1,(hin e he).2⟩
        · rw [List.mem_singleton.mp he]
          exact ⟨by simp,hseen⟩
    · exact ⟨hnd,fun e he => ⟨List.mem_append_left _ (hin e he).1,(hin e he).2⟩⟩

theorem accept_covers (h : accept key digest seen batch = some fresh) (he : e ∈ batch) :
    noted key digest seen fresh (key e) = some (digest e) := by
  induction batch using List.reverseRecOn generalizing fresh with
  | nil => cases he
  | append_singleton batch a ih =>
    obtain ⟨before,hb,hc⟩ := of_accept_snoc h
    rcases hc with ⟨hn,rfl⟩ | ⟨hn,rfl⟩
    · rw [noted_snoc hn]
      rcases List.mem_append.mp he with he | he
      · have hk : key e ≠ key a := by
          intro hk
          have := ih hb he
          rw [hk,hn] at this
          cases this
        rw [if_neg hk,ih hb he]
      · rw [List.mem_singleton.mp he,if_pos rfl]
    · rcases List.mem_append.mp he with he | he
      · exact ih hb he
      · rw [List.mem_singleton.mp he,hn]

theorem accept_replays (h : ∀ e ∈ batch, seen (key e) = some (digest e)) :
    accept key digest seen batch = some [] := by
  induction batch using List.reverseRecOn with
  | nil => rfl
  | append_singleton batch a ih =>
    refine accept_snoc_again (ih fun e he => h e (List.mem_append_left _ he)) ?_
    rw [noted_of_not_mem (by simp)]
    exact h a (by simp)

theorem accept_stable (h : accept key digest seen batch = some fresh)
    (hkept : ∀ k d, seen k = some d → seen' k = some d)
    (hfree : ∀ e ∈ fresh, seen' (key e) = none) :
    accept key digest seen' batch = some fresh := by
  induction batch using List.reverseRecOn generalizing fresh with
  | nil =>
    cases h
    rfl
  | append_singleton batch a ih =>
    obtain ⟨before,hb,hc⟩ := of_accept_snoc h
    rcases hc with ⟨hn,rfl⟩ | ⟨hn,rfl⟩
    · refine accept_snoc_new (ih hb fun e he => hfree e (List.mem_append_left _ he)) ?_
      exact noted_eq_none.mpr ⟨(noted_eq_none.mp hn).1,hfree a (by simp)⟩
    · refine accept_snoc_again (ih hb hfree) ?_
      -- either the batch itself took the key, or it was known before
      unfold noted at hn ⊢
      split at hn
      · exact hn
      · exact hkept _ _ hn

theorem accept_append {more later : List E} (h : accept key digest seen batch = some fresh)
    (hm : accept key digest (noted key digest seen fresh) more = some later) :
    accept key digest seen (batch ++ more) = some (fresh ++ later) := by
  induction more using List.reverseRecOn generalizing later with
  | nil =>
    cases hm
    simpa using h
  | append_singleton more a ih =>
    obtain ⟨before,hb,hc⟩ := of_accept_snoc hm
    have hnew : ∀ e ∈ before, noted key digest seen fresh (key e) = none :=
      fun e he => ((accept_fresh hb).2 e he).2
    rw [← List.append_assoc]
    rcases hc with ⟨hn,rfl⟩ | ⟨hn,rfl⟩
    · rw [← List.append_assoc]
      refine accept_snoc_new (ih hb) ?_
      rw [noted_append hnew,hn]
    · refine accept_snoc_again (ih hb) ?_
      rw [noted_append hnew,hn]

end CostConsumer.Foundation.Once
