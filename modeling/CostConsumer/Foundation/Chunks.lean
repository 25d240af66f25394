import Mathlib.Data.List.Nodup
import Mathlib.Order.Monotone.Basic
import Mathlib.Order.Nat
set_option autoImplicit false

namespace CostConsumer.Foundation

variable {α K : Type}

/-- At most `fuel` chunks of length `n`; the last one may be shorter. -/
def chunks (n : Nat) : Nat → List α → List (List α)
  | 0, _ => []
  | _+1, [] => []
  | fuel+1, a :: as => (a :: as).take n :: chunks n fuel ((a :: as).drop n)

theorem chunks_nil (n fuel : Nat) : chunks n fuel ([] : List α) = [] := by
  cases fuel <;> rfl

theorem chunks_cons {n fuel : Nat} {as : List α} (h : as ≠ []) :
    chunks n (fuel+1) as = as.take n :: chunks n fuel (as.drop n) := by
  cases as with
  | nil => contradiction
  | cons a as => rfl

theorem chunks_short {n fuel : Nat} {as : List α} (h : as ≠ []) (hn : as.length ≤ n) :
    chunks n (fuel+1) as = [as] := by
  rw [chunks_cons h,List.take_of_length_le hn,List.drop_eq_nil_of_le hn,chunks_nil]

theorem drop_of_short {n : Nat} {as : List α} (h : (as.take n).length < n) : as.drop n = [] := by
  rw [List.length_take] at h
  exact List.drop_eq_nil_of_le (by omega)

theorem chunks_flatten {n fuel : Nat} {as : List α} (hn : 0 < n) (hf : as.length ≤ fuel) :
    (chunks n fuel as).flatten = as := by
  induction fuel generalizing as with
  | zero =>
    have h0 : as = [] := List.eq_nil_of_length_eq_zero (by omega)
    subst h0
    rfl
  | succ fuel ih =>
    cases as with
    | nil => rfl
    | cons a as =>
      have hd : ((a :: as).drop n).length ≤ fuel := by
        rw [List.length_drop,List.length_cons]
        simp only [List.length_cons] at hf
        omega
      rw [chunks,List.flatten_cons,ih hd,List.take_append_drop]

theorem chunks_length {n fuel : Nat} {as c : List α} (h : c ∈ chunks n fuel as) :
    c.length ≤ n := by
  induction fuel generalizing as with
  | zero => cases h
  | succ fuel ih =>
    cases as with
    | nil => cases h
    | cons a as =>
      rcases List.mem_cons.mp h with rfl | h
      · exact List.length_take_le _ _
      · exact ih h

theorem chunks_fuel {n fuel fuel' : Nat} {as : List α} (hn : 0 < n) (hf : as.length ≤ fuel)
    (hf' : as.length ≤ fuel') : chunks n fuel as = chunks n fuel' as := by
  induction fuel generalizing as fuel' with
  | zero =>
    have h0 : as = [] := List.eq_nil_of_length_eq_zero (by omega)
    subst h0
    rw [chunks_nil,chunks_nil]
  | succ fuel ih =>
    cases as with
    | nil => rw [chunks_nil,chunks_nil]
    | cons a as =>
      cases fuel' with
      | zero => simp at hf'
      | succ fuel' =>
        simp only [List.length_cons] at hf hf'
        rw [chunks,chunks,ih] <;> simp only [List.length_drop,List.length_cons] <;> omega

theorem chunks_drop {n fuel : Nat} (hn : 0 < n) (k : Nat) {as : List α} (hf : as.length ≤ fuel) :
    (chunks n fuel as).drop k = chunks n fuel (as.drop (n*k)) := by
  induction k generalizing as fuel with
  | zero => rfl
  | succ k ih =>
    by_cases has : as = []
    · rw [has,chunks_nil,List.drop_nil,List.drop_nil,chunks_nil]
    obtain ⟨fuel,rfl⟩ := Nat.exists_eq_succ_of_ne_zero
      (by have := List.length_pos_of_ne_nil has; omega : fuel ≠ 0)
    have hd : (as.drop n).length ≤ fuel := by
      rw [List.length_drop]
      omega
    rw [chunks_cons has,List.drop_succ_cons,ih hd,List.drop_drop,Nat.mul_succ,Nat.add_comm n]
    exact chunks_fuel hn (by rw [List.length_drop]; rw [List.length_drop] at hd; omega)
      (by rw [List.length_drop]; omega)

theorem getElem?_chunks {n fuel k : Nat} (hn : 0 < n) {as : List α} (hf : as.length ≤ fuel)
    (hk : n*k < as.length) : (chunks n fuel as)[k]? = some ((as.drop (n*k)).take n) := by
  have hne : as.drop (n*k) ≠ [] := by
    rw [Ne,List.drop_eq_nil_iff]
    omega
  have hdrop := chunks_drop hn k hf
  obtain ⟨fuel,rfl⟩ := Nat.exists_eq_succ_of_ne_zero (by omega : fuel ≠ 0)
  rw [chunks_cons hne] at hdrop
  have hhead := congrArg (fun l => l[0]?) hdrop
  simpa using hhead

theorem take_drop_around {start len rest : Nat} {as : List α} {a : α} (h : as[start+len]? = some a) :
    (as.drop start).take (len+1+rest) =
      (as.take (start+len)).drop start ++ a :: (as.drop (start+len+1)).take rest := by
  obtain ⟨hi,ha⟩ := List.getElem?_eq_some_iff.mp h
  have hdrop : as.drop (start+len) = a :: as.drop (start+len+1) := by
    rw [List.drop_eq_getElem_cons hi,ha]
  rw [Nat.add_assoc,List.take_add,List.drop_drop,hdrop,List.drop_take,Nat.add_sub_cancel_left,
    Nat.add_comm 1 rest,List.take_succ_cons]

/-- The chunk of the element at position `i` starts at a multiple of the length. -/
theorem chunks_around {n fuel i : Nat} (hn : 0 < n) {as : List α} (hf : as.length ≤ fuel) {a : α}
    (h : as[i]? = some a) : ∃ before post after,
      chunks n fuel as = before ++ ((as.take i).drop (n*(i/n)) ++ a :: post) :: after := by
  have hi := (List.getElem?_eq_some_iff.mp h).1
  have hle : n*(i/n) ≤ i := Nat.mul_div_le i n
  have hlt : i < n*(i/n) + n := Nat.lt_mul_div_succ i hn
  have hchunk := getElem?_chunks hn hf (k := i/n) (by omega)
  obtain ⟨before,after,hc⟩ := List.append_of_mem (List.mem_of_getElem? hchunk)
  generalize n*(i/n) = start at *
  obtain ⟨len,rfl⟩ := Nat.exists_eq_add_of_le hle
  obtain ⟨rest,hrest⟩ : ∃ rest, n = len+1+rest := ⟨n - (len+1),by omega⟩
  rw [hrest,take_drop_around h,← hrest] at hc
  exact ⟨before,_,after,hc⟩

theorem filter_notMem_take [DecidableEq K] {key : α → K} {as : List α} (h : (as.map key).Nodup)
    (n : Nat) : as.filter (fun a => key a ∉ (as.take n).map key) = as.drop n := by
  have hd : ((as.take n).map key).Disjoint ((as.drop n).map key) := by
    rw [← List.take_append_drop n as,List.map_append] at h
    exact List.disjoint_of_nodup_append h
  conv_lhs => rw [← List.take_append_drop n as]
  rw [List.filter_append]
  have h₁ : (as.take n).filter (fun a => key a ∉ ((as.take n ++ as.drop n).take n).map key) = [] := by
    rw [List.filter_eq_nil_iff]
    intro a ha
    rw [List.take_append_drop]
    have hm := List.mem_map_of_mem (f := key) ha
    simpa using hm
  have h₂ : (as.drop n).filter (fun a => key a ∉ ((as.take n ++ as.drop n).take n).map key) =
      as.drop n := by
    rw [List.filter_eq_self]
    intro a ha
    rw [List.take_append_drop]
    exact decide_eq_true (fun hm => hd hm (List.mem_map_of_mem ha))
  rw [h₁,h₂,List.nil_append]

theorem lt_length_takeWhile_iff (q : α → Bool) (as : List α) (k : Nat) :
    k < (as.takeWhile q).length ↔ ∀ j ≤ k, ∃ a, as[j]? = some a ∧ q a = true := by
  induction as generalizing k with
  | nil => simpa using ⟨0,Nat.zero_le k⟩
  | cons a as ih =>
    rw [List.takeWhile_cons]
    split
    · rename_i ha
      cases k with
      | zero => simpa using ha
      | succ k =>
        rw [List.length_cons,Nat.succ_lt_succ_iff,ih]
        constructor
        · intro h j hj
          cases j with
          | zero => exact ⟨a,rfl,ha⟩
          | succ j => exact h j (Nat.le_of_succ_le_succ hj)
        · exact fun h j hj => h (j+1) (Nat.succ_le_succ hj)
    · rename_i ha
      refine iff_of_false (Nat.not_lt_zero k) fun h => ha ?_
      obtain ⟨b,hb,hq⟩ := h 0 (Nat.zero_le k)
      rwa [Option.some.inj hb]

theorem dropWhile_eq_drop (q : α → Bool) (as : List α) :
    as.dropWhile q = as.drop (as.takeWhile q).length := by
  have hdrop : (as.takeWhile q ++ as.dropWhile q).drop (as.takeWhile q).length = as.dropWhile q := List.drop_left
  rwa [List.takeWhile_append_dropWhile,eq_comm] at hdrop

/-- How many elements are taken from the front in `n` rounds, each of which goes on until its
own test fails. -/
def taken (q : Nat → α → Bool) (as : List α) : Nat → Nat
  | 0 => 0
  | n+1 => taken q as n + ((as.drop (taken q as n)).takeWhile (q n)).length

theorem taken_mono (q : Nat → α → Bool) (as : List α) : Monotone (taken q as) :=
  monotone_nat_of_le_succ fun _ => Nat.le_add_right _ _

theorem lt_taken_succ_iff (q : Nat → α → Bool) (as : List α) {n k : Nat} (h : taken q as n ≤ k) :
    k < taken q as (n+1) ↔
      ∀ j, taken q as n ≤ j → j ≤ k → ∃ a, as[j]? = some a ∧ q n a = true := by
  obtain ⟨d,rfl⟩ := Nat.exists_eq_add_of_le h
  rw [taken,Nat.add_lt_add_iff_left,lt_length_takeWhile_iff]
  simp only [List.getElem?_drop]
  constructor
  · intro hd j hj hjk
    obtain ⟨e,rfl⟩ := Nat.exists_eq_add_of_le hj
    exact hd e (Nat.le_of_add_le_add_left hjk)
  · exact fun hd e he => hd _ (Nat.le_add_right _ _) (Nat.add_le_add_left he _)

theorem lt_taken_round {q : Nat → α → Bool} {as : List α} {round : Nat → Nat} (hmono : Monotone round)
    {k : Nat} (h : ∀ j ≤ k, ∃ a, as[j]? = some a ∧ q (round j) a = true) :
    k < taken q as (round k + 1) := by
  induction k using Nat.strong_induction_on with
  | _ k ih =>
    by_cases hlt : k < taken q as (round k)
    · exact Nat.lt_of_lt_of_le hlt (taken_mono q as (Nat.le_succ _))
    refine (lt_taken_succ_iff q as (Nat.le_of_not_lt hlt)).mpr fun j hj hjk => ?_
    -- what the rounds before have left is tested in this one
    have hround : round j = round k := by
      refine Nat.le_antisymm (hmono hjk) (Nat.le_of_not_lt fun hearlier => ?_)
      have hne : j ≠ k := fun hjk => absurd hearlier (by rw [hjk]; exact Nat.lt_irrefl _)
      have htaken := ih j (Nat.lt_of_le_of_ne hjk hne) fun i hi => h i (Nat.le_trans hi hjk)
      exact absurd (Nat.lt_of_lt_of_le htaken (taken_mono q as hearlier)) (Nat.not_lt_of_le hj)
    rw [← hround]
    exact h j hjk

/-- An element is taken if it and those before it pass the tests of rounds in order. -/
theorem lt_taken_iff (q : Nat → α → Bool) (as : List α) (n k : Nat) :
    k < taken q as n ↔ ∃ round : Nat → Nat, Monotone round ∧
      ∀ j ≤ k, round j < n ∧ ∃ a, as[j]? = some a ∧ q (round j) a = true := by
  constructor
  · intro hk
    have htaken (j : Nat) : ∃ m, min j k < taken q as (m+1) :=
      ⟨n,Nat.lt_of_le_of_lt (Nat.min_le_right j k) (Nat.lt_of_lt_of_le hk (taken_mono q as (Nat.le_succ n)))⟩
    refine ⟨fun j => Nat.find (htaken j),fun i j hij => ?_,fun j hj => ?_⟩
    · exact Nat.find_min' _ (Nat.lt_of_le_of_lt (by omega) (Nat.find_spec (htaken j)))
    beta_reduce
    have hspec := Nat.find_spec (htaken j)
    have hleast : ∀ m < Nat.find (htaken j), taken q as (m+1) ≤ j := fun m hm =>
      Nat.le_trans (Nat.le_of_not_lt (Nat.find_min (htaken j) hm)) (Nat.min_le_left j k)
    generalize Nat.find (htaken j) = m at hspec hleast ⊢
    rw [Nat.min_eq_left hj] at hspec
    have hbefore : taken q as m ≤ j := by
      cases m with
      | zero => exact Nat.zero_le j
      | succ m => exact hleast m (Nat.lt_succ_self m)
    refine ⟨Nat.lt_of_not_le fun hle => ?_,(lt_taken_succ_iff q as hbefore).mp hspec j hbefore (Nat.le_refl j)⟩
    exact absurd hk (Nat.not_lt_of_le ((taken_mono q as hle).trans (hbefore.trans hj)))
  · rintro ⟨round,hmono,h⟩
    exact Nat.lt_of_lt_of_le (lt_taken_round hmono fun j hj => (h j hj).2)
      (taken_mono q as (h k (Nat.le_refl k)).1)

end CostConsumer.Foundation
