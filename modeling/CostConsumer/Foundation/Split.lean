import Mathlib.Data.List.TakeWhile
set_option autoImplicit false

namespace CostConsumer.Foundation

variable {α : Type}

structure Joined (sep : α) (text : List α) (pieces : List (List α)) : Prop where
  some : pieces ≠ []
  apart : ∀ piece ∈ pieces, sep ∉ piece
  text : text = [sep].intercalate pieces

theorem splitOn_apart [DecidableEq α] (sep : α) (text : List α) :
    ∀ piece ∈ text.splitOn sep, sep ∉ piece := by
  induction text with
  | nil => simp
  | cons a text ih =>
    unfold List.splitOn at ih ⊢
    rw [List.splitOnP_cons_eq_if_modifyHead]
    split
    · simpa using ih
    · rename_i ha
      cases hs : text.splitOnP (· == sep) with
      | nil => simp
      | cons piece pieces =>
        rw [hs] at ih
        obtain ⟨hpiece,hpieces⟩ := List.forall_mem_cons.mp ih
        refine List.forall_mem_cons.mpr ⟨?_,hpieces⟩
        rw [List.mem_cons,not_or]
        exact ⟨fun h => ha (by simp [h]),hpiece⟩

theorem joined_iff [DecidableEq α] {sep : α} {text : List α} {pieces : List (List α)} :
    Joined sep text pieces ↔ text.splitOn sep = pieces := by
  constructor
  · rintro ⟨hsome,hapart,rfl⟩
    exact List.splitOn_intercalate sep hapart hsome
  · rintro rfl
    exact ⟨List.splitOn_ne_nil sep text,splitOn_apart sep text,(List.intercalate_splitOn sep).symm⟩

structure Stripped (p : α → Bool) (text core : List α) : Prop where
  text : ∃ before after, text = before ++ core ++ after ∧ (∀ a ∈ before, p a = true) ∧
    ∀ a ∈ after, p a = true
  first : ∀ a ∈ core.head?, p a = false
  last : ∀ a ∈ core.getLast?, p a = false

def strip (p : α → Bool) (text : List α) : List α :=
  ((text.dropWhile p).reverse.dropWhile p).reverse

theorem dropWhile_of_first {p : α → Bool} {l : List α} (h : ∀ a ∈ l.head?, p a = false) :
    l.dropWhile p = l := by
  cases l with
  | nil => rfl
  | cons a l => rw [List.dropWhile_cons_of_neg (by simp [h a rfl])]

theorem first_dropWhile (p : α → Bool) (l : List α) : ∀ a ∈ (l.dropWhile p).head?, p a = false := by
  induction l with
  | nil => simp
  | cons b l ih =>
    rw [List.dropWhile_cons]
    split
    · exact ih
    · rename_i hb
      simpa using hb

theorem strip_stripped (p : α → Bool) (text : List α) : Stripped p text (strip p text) := by
  have hsplit : text.dropWhile p = strip p text ++ ((text.dropWhile p).reverse.takeWhile p).reverse := by
    rw [strip,← List.reverse_append,List.takeWhile_append_dropWhile,List.reverse_reverse]
  refine ⟨⟨text.takeWhile p,((text.dropWhile p).reverse.takeWhile p).reverse,?_,?_,?_⟩,?_,?_⟩
  · rw [List.append_assoc,← hsplit,List.takeWhile_append_dropWhile]
  · exact fun a ha => List.mem_takeWhile_imp ha
  · exact fun a ha => List.mem_takeWhile_imp (List.mem_reverse.mp ha)
  · intro a ha
    refine first_dropWhile p text a ?_
    rw [hsplit,List.head?_append]
    simp [Option.mem_def.mp ha]
  · intro a ha
    rw [strip,List.getLast?_reverse] at ha
    exact first_dropWhile p _ a ha

theorem strip_eq_iff {p : α → Bool} {text core : List α} : strip p text = core ↔ Stripped p text core := by
  constructor
  · rintro rfl
    exact strip_stripped p text
  · rintro ⟨⟨before,after,rfl,hbefore,hafter⟩,hfirst,hlast⟩
    have hrev : ∀ a ∈ core.reverse.head?, p a = false := by
      rw [List.head?_reverse]
      exact hlast
    have hafter' : ∀ a ∈ after.reverse, p a = true := fun a ha => hafter a (List.mem_reverse.mp ha)
    rw [strip,List.append_assoc,List.dropWhile_append_of_pos hbefore]
    cases core with
    | nil => simp [List.dropWhile_eq_nil_iff.mpr hafter]
    | cons a core =>
      have hdrop : ((a :: core) ++ after).dropWhile p = (a :: core) ++ after :=
        dropWhile_of_first fun b hb => hfirst b hb
      rw [hdrop,List.reverse_append,List.dropWhile_append_of_pos hafter',dropWhile_of_first hrev,
        List.reverse_reverse]

end CostConsumer.Foundation
