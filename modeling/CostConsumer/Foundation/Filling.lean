import Mathlib.Data.List.Perm.Subperm
set_option autoImplicit false

namespace CostConsumer.Foundation

variable {α : Type}

/-- What is in the table, and what the loop has still to write. -/
structure Fill (α : Type) where
  written : List α
  pending : List α

inductive Move where
  | begin : Move
  | write : Move
  | skip : Move
  | stop : Move
  deriving DecidableEq, Repr

namespace Fill

def move (rows : List α) (f : Fill α) : Move → Fill α
  | .begin => if f.written.isEmpty then ⟨[],rows⟩ else f
  | .write => ⟨f.written ++ f.pending.take 1,f.pending.drop 1⟩
  | .skip => ⟨f.written,f.pending.drop 1⟩
  | .stop => ⟨f.written,[]⟩

def moves (rows : List α) : Fill α → List Move → Fill α := List.foldl (move rows)

/-- A row is written only if all before it are, and left out only if none is. -/
def Whole (rows : List α) (f : Fill α) : Move → Prop
  | .begin => True
  | .write => f.pending = [] ∨ f.written ++ f.pending = rows
  | .skip | .stop => f.pending = [] ∨ f.written = []

instance [DecidableEq α] (rows : List α) (f : Fill α) (m : Move) : Decidable (f.Whole rows m) :=
  match m with
  | .begin => inferInstanceAs (Decidable True)
  | .write | .skip | .stop => inferInstanceAs (Decidable (_ ∨ _))

def WholeAll (rows : List α) : Fill α → List Move → Prop
  | _, [] => True
  | f, m :: ms => f.Whole rows m ∧ WholeAll rows (f.move rows m) ms

instance wholeAllDecidable [DecidableEq α] (rows : List α) :
    (ms : List Move) → (f : Fill α) → Decidable (f.WholeAll rows ms)
  | [], _ => inferInstanceAs (Decidable True)
  | _ :: ms, _ => @instDecidableAnd _ _ _ (wholeAllDecidable rows ms _)

/-- The table is empty, or the loop is filling it in full. -/
structure Good (rows : List α) (f : Fill α) : Prop where
  rest : f.pending <:+ rows
  all : f.written = [] ∨ f.written ++ f.pending = rows

/-- The table is not empty, and the loop will not fill it. -/
structure Lost (rows : List α) (f : Fill α) : Prop where
  some : f.written ≠ []
  short : f.written.length + f.pending.length < rows.length

variable {rows : List α} {f : Fill α}

theorem move_begin_of_some (h : f.written ≠ []) : f.move rows .begin = f := by
  rw [move,if_neg (by simpa using h)]

theorem Good.unchanged (h : f.Good rows) (hnil : f.pending = []) : Good rows ⟨f.written,[]⟩ :=
  ⟨List.nil_suffix,by simpa [hnil] using h.all⟩

theorem Good.move (h : f.Good rows) {m : Move} (hw : f.Whole rows m) : (f.move rows m).Good rows := by
  cases m with
  | begin =>
    simp only [Fill.move]
    split
    · exact ⟨List.suffix_refl rows,.inl rfl⟩
    · exact h
  | write =>
    rcases hw with hnil | hall
    · simpa [Fill.move,hnil] using h.unchanged hnil
    · refine ⟨(List.drop_suffix 1 f.pending).trans h.rest,.inr ?_⟩
      rw [Fill.move,List.append_assoc,List.take_append_drop,hall]
  | skip =>
    rcases hw with hnil | hnone
    · simpa [Fill.move,hnil] using h.unchanged hnil
    · exact ⟨(List.drop_suffix 1 f.pending).trans h.rest,.inl hnone⟩
  | stop =>
    rcases hw with hnil | hnone
    · exact h.unchanged hnil
    · exact ⟨List.nil_suffix,.inl hnone⟩

theorem Good.length_eq (h : f.Good rows) (hsome : f.written ≠ []) :
    f.written.length + f.pending.length = rows.length := by
  rw [← List.length_append,h.all.resolve_left hsome]

theorem Good.lost (h : f.Good rows) {m : Move} (hw : ¬ f.Whole rows m) : (f.move rows m).Lost rows := by
  cases m with
  | begin => exact absurd trivial hw
  | write =>
    obtain ⟨hsome,hall⟩ := not_or.mp hw
    -- an earlier row was left out, and with it all before
    have hnone := h.all.resolve_right hall
    rw [hnone,List.nil_append] at hall
    have hpos := List.length_pos_iff.mpr hsome
    have hshort : f.pending.length < rows.length :=
      Nat.lt_of_le_of_ne h.rest.length_le fun heq => hall (h.rest.eq_of_length heq)
    constructor
    · simpa [Fill.move,hnone] using hsome
    · simp only [Fill.move,hnone,List.nil_append,List.length_take,List.length_drop]
      omega
  | skip =>
    obtain ⟨hnil,hsome⟩ := not_or.mp hw
    have hpos := List.length_pos_iff.mpr hnil
    have hlen := h.length_eq hsome
    exact ⟨hsome,by simp only [Fill.move,List.length_drop]; omega⟩
  | stop =>
    obtain ⟨hnil,hsome⟩ := not_or.mp hw
    have hpos := List.length_pos_iff.mpr hnil
    have hlen := h.length_eq hsome
    exact ⟨hsome,by simp only [Fill.move,List.length_nil]; omega⟩

theorem Lost.move (h : f.Lost rows) (m : Move) : (f.move rows m).Lost rows := by
  obtain ⟨hsome,hshort⟩ := h
  cases m with
  | begin =>
    rw [move_begin_of_some hsome]
    exact ⟨hsome,hshort⟩
  | write =>
    refine ⟨by simp [Fill.move,hsome],?_⟩
    simp only [Fill.move,List.length_append,List.length_take,List.length_drop]
    omega
  | skip =>
    refine ⟨hsome,?_⟩
    simp only [Fill.move,List.length_drop]
    omega
  | stop =>
    refine ⟨hsome,?_⟩
    simp only [Fill.move,List.length_nil]
    omega

theorem Lost.moves (h : f.Lost rows) (ms : List Move) : (f.moves rows ms).Lost rows := by
  induction ms generalizing f with
  | nil => exact h
  | cons m ms ih => exact ih (h.move m)

theorem Good.moves (h : f.Good rows) {ms : List Move} (hw : f.WholeAll rows ms) :
    (f.moves rows ms).Good rows := by
  induction ms generalizing f with
  | nil => exact h
  | cons m ms ih => exact ih (h.move hw.1) hw.2

theorem Good.lost_moves (h : f.Good rows) {ms : List Move} (hw : ¬ f.WholeAll rows ms) :
    (f.moves rows ms).Lost rows := by
  induction ms generalizing f with
  | nil => exact absurd trivial hw
  | cons m ms ih =>
    by_cases hm : f.Whole rows m
    · exact ih (h.move hm) fun hms => hw ⟨hm,hms⟩
    · exact (h.lost hm).moves ms

theorem Good.complete (h : f.Good rows) (hsome : f.written ≠ []) (hnil : f.pending = []) :
    f.written = rows := by
  rw [← h.all.resolve_left hsome,hnil,List.append_nil]

theorem Lost.incomplete (h : f.Lost rows) (hnd : rows.Nodup) : ¬ rows ⊆ f.written := by
  intro hsub
  have hle := (List.subperm_of_subset hnd hsub).length_le
  have hshort := h.short
  omega

end Fill

end CostConsumer.Foundation
