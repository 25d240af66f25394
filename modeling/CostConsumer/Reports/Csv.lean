import CostConsumer.Foundation.Csv
set_option autoImplicit false

/-!
The text fields of the CSV exports. A field that a spreadsheet would take for a formula gets an
apostrophe, and no quotes; any other field gets quotes if it has a comma, a quote or a line feed.
-/

namespace CostConsumer.Reports
open Foundation.Csv

def isFormula (s : List Char) : Bool := s.head?.any (· ∈ ['=','+','-','@'])

def containsDelimiter (s : List Char) : Bool := s.any (· ∈ [',','"','\n'])

def csvSafe (s : List Char) : List Char :=
  if isFormula s then '\'' :: s
  else if containsDelimiter s then '"' :: (s.flatMap double ++ ['"'])
  else s

def csvLine (strings : List (List Char)) : List Char := [','].intercalate (strings.map csvSafe)

/-- The string is given back, up to the apostrophe, and is no formula. -/
def Restores (s f : List Char) : Prop := (f = s ∨ f = '\'' :: s) ∧ isFormula f = false

def RoundTrips (t : TextData) (strings : List (List Char)) : Prop :=
  ∃ fields, readRecord t (csvLine strings) = some fields ∧ List.Forall₂ Restores strings fields

/-- Only what stands between quotes may have delimiters. -/
def Printable (t : TextData) (s : List Char) : Bool :=
  if isFormula s || !containsDelimiter s then s.all t.text else s.all t.quotable

def safeField (s : List Char) : List Char := if isFormula s then '\'' :: s else s

variable {t : TextData} {s : List Char}

theorem safeField_restores (s : List Char) : Restores s (safeField s) := by
  unfold safeField
  split
  · exact ⟨.inr rfl,rfl⟩
  · rename_i h
    exact ⟨.inl rfl,by simpa using h⟩

theorem writes_csvSafe (ha : t.text '\'' = true) (h : Printable t s = true) :
    Writes t (csvSafe s) (safeField s) := by
  unfold Printable at h
  unfold csvSafe safeField
  cases hf : isFormula s with
  | true =>
    simp only [hf,Bool.true_or,if_true] at h
    exact writes_plain (by simp [ha,h])
  | false =>
    cases hc : containsDelimiter s with
    | true =>
      simp only [hf,hc,Bool.not_true,Bool.or_false,Bool.false_eq_true,if_false] at h
      exact writes_quoted h
    | false =>
      simp only [hf,hc,Bool.not_false,Bool.or_true,if_true] at h
      exact writes_plain h

theorem not_restores_of_short {f : List Char} (hs : isFormula s = true) (hf : f.length < s.length) :
    ¬ Restores s ('\'' :: f) := by
  rintro ⟨he | he,-⟩
  · rw [← he] at hs
    cases hs
  · have hlen := congrArg List.length (List.cons.inj he).2
    omega

theorem csvSafe_not_restored (ha : t.text '\'' = true) (h : Printable t s = false) (rest : List Char)
    {fs : Fields} (hr : readFields t .start (csvSafe s ++ rest) = some fs) : ¬ Restores s fs.1 := by
  unfold Printable at h
  unfold csvSafe at hr
  cases hf : isFormula s with
  | true =>
    simp only [hf,Bool.true_or,if_true] at h hr
    rw [List.cons_append,readFields,if_neg (by decide),if_neg (by decide),if_pos ha] at hr
    obtain ⟨gs,hgs,rfl⟩ := Option.map_eq_some_iff.mp hr
    exact not_restores_of_short hf (read_plain_short h rest hgs)
  | false =>
    cases hc : containsDelimiter s with
    | true =>
      simp only [hf,hc,Bool.not_true,Bool.or_false,Bool.false_eq_true,if_false,if_true] at h hr
      rw [List.cons_append,List.append_assoc,readFields,if_pos rfl,read_quoted_none h] at hr
      cases hr
    | false =>
      simp only [hf,hc,Bool.not_false,Bool.or_true,if_true,Bool.false_eq_true,if_false] at h hr
      have hno : ∀ c ∈ s, c ∉ [',','"','\n'] := by simpa [containsDelimiter] using hc
      rw [read_plain_none h (fun hm => hno _ hm (by simp)) (fun hm => hno _ hm (by simp))] at hr
      cases hr

theorem csvLine_cons (ha : t.text '\'' = true) (h : Printable t s = true) {strings : List (List Char)}
    (hne : strings ≠ []) :
    readRecord t (csvLine (s :: strings)) = (readRecord t (csvLine strings)).map (safeField s :: ·) := by
  have hread := (writes_csvSafe ha h).read_join (strings.map csvSafe)
  rw [if_neg (by simpa using hne)] at hread
  exact hread

theorem csvLine_singleton (ha : t.text '\'' = true) (h : Printable t s = true) :
    readRecord t (csvLine [s]) = some [safeField s] :=
  (writes_csvSafe ha h).read_join []

theorem roundTrips_of_printable (ha : t.text '\'' = true) {strings : List (List Char)} (hne : strings ≠ [])
    (h : ∀ s ∈ strings, Printable t s = true) : RoundTrips t strings := by
  induction strings with
  | nil => exact absurd rfl hne
  | cons s strings ih =>
    have hs := h s List.mem_cons_self
    by_cases hnil : strings = []
    · subst hnil
      exact ⟨_,csvLine_singleton ha hs,.cons (safeField_restores s) .nil⟩
    · obtain ⟨fields,hr,hall⟩ := ih hnil fun s hs => h s (List.mem_cons_of_mem _ hs)
      refine ⟨safeField s :: fields,?_,.cons (safeField_restores s) hall⟩
      rw [csvLine_cons ha hs hnil,hr,Option.map_some]

theorem csvLine_head (s : List Char) (strings : List (List Char)) :
    ∃ rest, csvLine (s :: strings) = csvSafe s ++ rest := by
  cases strings with
  | nil => exact ⟨[],by simp [csvLine]⟩
  | cons s' strings => exact ⟨_,by rw [csvLine,List.map_cons,List.map_cons,List.intercalate_cons_cons,List.append_assoc]⟩

theorem printable_of_roundTrips (ha : t.text '\'' = true) {strings : List (List Char)}
    (h : RoundTrips t strings) : ∀ s ∈ strings, Printable t s = true := by
  induction strings with
  | nil => exact fun _ hs => nomatch hs
  | cons s strings ih =>
    obtain ⟨fields,hr,hall⟩ := h
    cases hp : Printable t s with
    | false =>
      obtain ⟨rest,hline⟩ := csvLine_head s strings
      rw [hline] at hr
      obtain ⟨fs,hfs,rfl⟩ := Option.map_eq_some_iff.mp hr
      exact absurd (List.forall₂_cons.mp hall).1 (csvSafe_not_restored ha hp rest hfs)
    | true =>
      intro s' hs'
      rcases List.mem_cons.mp hs' with rfl | hs'
      · exact hp
      · rw [csvLine_cons ha hp (List.ne_nil_of_mem hs')] at hr
        obtain ⟨fields',hr',rfl⟩ := Option.map_eq_some_iff.mp hr
        exact ih ⟨fields',hr',(List.forall₂_cons.mp hall).2⟩ s' hs'

/-- A line gives back its strings if there are any, and delimiters are in strings only that are
written with quotes. -/
theorem csv_round_trips_iff {t : TextData} (ha : t.text '\'' = true) (strings : List (List Char)) :
    RoundTrips t strings ↔ strings ≠ [] ∧ ∀ s ∈ strings, Printable t s = true := by
  constructor
  · intro h
    refine ⟨?_,printable_of_roundTrips ha h⟩
    rintro rfl
    obtain ⟨fields,hr,hall⟩ := h
    cases hall
    cases hr
  · intro h
    exact roundTrips_of_printable ha h.1 h.2

/-- Quotes, commas and line feeds between quotes, and formulas without them. -/
theorem csv_round_trips_example :
    RoundTrips ascii ["a,\"b\"\nc".toList,"=SUM(A1:A9)".toList,"".toList] ∧
    RoundTrips anyText ["a,\"b\"\r\nc".toList,"-é".toList] :=
  ⟨(csv_round_trips_iff (by decide) _).mpr (by decide +kernel),
    (csv_round_trips_iff (by decide) _).mpr (by decide +kernel)⟩

/-- A formula with a comma is read as two fields, a carriage return stands without quotes, and
no string makes a field. -/
theorem csv_not_restored :
    readRecord anyText (csvLine ["=1,2".toList]) = some ["'=1".toList,"2".toList] ∧
    readRecord anyText (csvLine ["=\"".toList]) = none ∧
    readRecord anyText (csvLine ["a\rb".toList]) = none ∧
    readRecord anyText (csvLine []) = some [[]] ∧
    ¬ RoundTrips anyText ["=1,2".toList] ∧ ¬ RoundTrips anyText ["a\rb".toList] ∧
    ¬ RoundTrips anyText [] := by
  refine ⟨by decide +kernel,by decide +kernel,by decide +kernel,by decide +kernel,fun h => ?_,fun h => ?_,?_⟩
  · exact absurd (printable_of_roundTrips (by decide) h) (by decide +kernel)
  · exact absurd (printable_of_roundTrips (by decide) h) (by decide +kernel)
  · rintro ⟨fields,hr,hall⟩
    cases hall
    cases hr

end CostConsumer.Reports
