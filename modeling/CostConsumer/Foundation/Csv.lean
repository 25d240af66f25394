import Mathlib.Data.List.Basic
import Mathlib.Data.List.Forall2
set_option autoImplicit false

namespace CostConsumer.Foundation.Csv

structure TextData where
  text : Char → Bool
  comma : text ',' = false
  quote : text '"' = false

/-- Those between quotes, where a quote is written twice. -/
def TextData.quotable (t : TextData) (c : Char) : Bool :=
  t.text c || c = ',' || c = '\r' || c = '\n' || c = '"'

def ascii : TextData := ⟨fun c => 0x20 ≤ c.toNat && c.toNat ≤ 0x7E && c ≠ ',' && c ≠ '"',by decide,by decide⟩

def anyText : TextData := ⟨fun c => c ≠ ',' && c ≠ '"' && c ≠ '\r' && c ≠ '\n',by decide,by decide⟩

/-- Where the reader is: at the start of a field, in a field without quotes, between
quotes, or past a quote between quotes. -/
inductive Mode where
  | start : Mode
  | plain : Mode
  | quoted : Mode
  | closed : Mode

abbrev Fields := List Char × List (List Char)

def Fields.addText (f : List Char) (fs : Fields) : Fields := (f ++ fs.1,fs.2)

def Fields.next (fs : Fields) : Fields := ([],fs.1 :: fs.2)

def readFields (t : TextData) : Mode → List Char → Option Fields
  | .quoted, [] => none
  | _, [] => some ([],[])
  | .start, c :: cs =>
    if c = '"' then readFields t .quoted cs
    else if c = ',' then (readFields t .start cs).map .next
    else if t.text c then (readFields t .plain cs).map (.addText [c])
    else none
  | .plain, c :: cs =>
    if c = ',' then (readFields t .start cs).map .next
    else if t.text c then (readFields t .plain cs).map (.addText [c])
    else none
  | .quoted, c :: cs =>
    if c = '"' then readFields t .closed cs
    else if t.quotable c then (readFields t .quoted cs).map (.addText [c])
    else none
  | .closed, c :: cs =>
    if c = '"' then (readFields t .quoted cs).map (.addText ['"'])
    else if c = ',' then (readFields t .start cs).map .next
    else none

attribute [local simp] readFields

def readRecord (t : TextData) (line : List Char) : Option (List (List Char)) :=
  (readFields t .start line).map (fun fs => fs.1 :: fs.2)

def double (c : Char) : List Char := if c = '"' then ['"','"'] else [c]

variable {t : TextData} {f p q rest : List Char} {c : Char}

theorem map_addText (f g : List Char) (r : Option Fields) :
    (r.map (Fields.addText g)).map (Fields.addText f) = r.map (Fields.addText (f ++ g)) := by
  cases r <;> simp [Fields.addText]

theorem text_ne_comma (h : t.text c = true) : c ≠ ',' := by
  rintro rfl
  simp [t.comma] at h

theorem text_ne_quote (h : t.text c = true) : c ≠ '"' := by
  rintro rfl
  simp [t.quote] at h

theorem read_plain_append (h : f.all t.text = true) (rest : List Char) :
    readFields t .plain (f ++ rest) = (readFields t .plain rest).map (.addText f) := by
  induction f with
  | nil => cases hr : readFields t .plain rest <;> simp [hr,Fields.addText]
  | cons c f ih =>
    rw [List.all_cons,Bool.and_eq_true] at h
    rw [List.cons_append,readFields,if_neg (text_ne_comma h.1),if_pos h.1,ih h.2,map_addText]
    rfl

theorem read_quoted_append (h : f.all t.quotable = true) (rest : List Char) :
    readFields t .quoted (f.flatMap double ++ rest) = (readFields t .quoted rest).map (.addText f) := by
  induction f with
  | nil => cases hr : readFields t .quoted rest <;> simp [hr,Fields.addText]
  | cons c f ih =>
    rw [List.all_cons,Bool.and_eq_true] at h
    rw [List.flatMap_cons,List.append_assoc]
    by_cases hc : c = '"'
    · subst hc
      rw [double,if_pos rfl,List.cons_append,List.cons_append,List.nil_append,readFields,if_pos rfl,readFields,if_pos rfl,
        ih h.2,map_addText]
      rfl
    · rw [double,if_neg hc,List.cons_append,List.nil_append,readFields,if_neg hc,if_pos h.1,ih h.2,map_addText]
      rfl

def Ends (rest : List Char) : Prop := rest = [] ∨ ∃ more, rest = ',' :: more

theorem Ends.start (h : Ends rest) : readFields t .start rest = readFields t .plain rest := by
  rcases h with rfl | ⟨more,rfl⟩
  · rfl
  · simp

theorem Ends.closed (h : Ends rest) : readFields t .closed rest = readFields t .plain rest := by
  rcases h with rfl | ⟨more,rfl⟩
  · rfl
  · simp

/-- A text that is read as a field, wherever it stands in a record. -/
def Writes (t : TextData) (w f : List Char) : Prop :=
  ∀ rest, Ends rest → readFields t .start (w ++ rest) = (readFields t .plain rest).map (.addText f)

theorem read_start_append (h : f.all t.text = true) (hne : f ≠ []) (rest : List Char) :
    readFields t .start (f ++ rest) = (readFields t .plain rest).map (.addText f) := by
  cases f with
  | nil => exact absurd rfl hne
  | cons c f =>
    rw [List.all_cons,Bool.and_eq_true] at h
    rw [List.cons_append,readFields,if_neg (text_ne_quote h.1),if_neg (text_ne_comma h.1),if_pos h.1,
      read_plain_append h.2,map_addText]
    rfl

theorem writes_plain (h : f.all t.text = true) : Writes t f f := by
  intro rest hr
  by_cases hne : f = []
  · subst hne
    rw [List.nil_append,hr.start]
    cases hp : readFields t .plain rest <;> simp [Fields.addText]
  · exact read_start_append h hne rest

theorem writes_quoted (h : f.all t.quotable = true) : Writes t ('"' :: (f.flatMap double ++ ['"'])) f := by
  intro rest hr
  rw [List.cons_append,List.append_assoc,readFields,if_pos rfl,read_quoted_append h,List.singleton_append,readFields,
    if_pos rfl,hr.closed]

theorem Writes.read_join {w f : List Char} (h : Writes t w f) (ws : List (List Char)) :
    readRecord t ([','].intercalate (w :: ws)) =
      if ws = [] then some [f] else (readRecord t ([','].intercalate ws)).map (f :: ·) := by
  cases ws with
  | nil =>
    have hr := h [] (.inl rfl)
    simp only [List.append_nil] at hr
    simp [readRecord,hr,Fields.addText]
  | cons w' ws =>
    have hr := h (',' :: [','].intercalate (w' :: ws)) (.inr ⟨_,rfl⟩)
    have hline : [','].intercalate (w :: w' :: ws) = w ++ ',' :: [','].intercalate (w' :: ws) := by
      rw [List.intercalate_cons_cons,List.append_assoc,List.singleton_append]
    rw [hline,readRecord,hr,readFields,if_pos rfl,if_neg (List.cons_ne_nil w' ws),readRecord]
    cases readFields t .start ([','].intercalate (w' :: ws)) <;> simp [Fields.addText,Fields.next]

theorem exists_first {α : Type} {p : α → Bool} {l : List α} (h : l.all p = false) :
    ∃ a c b, l = a ++ c :: b ∧ a.all p = true ∧ p c = false := by
  induction l with
  | nil => cases h
  | cons c l ih =>
    cases hc : p c with
    | false => exact ⟨[],c,l,rfl,rfl,hc⟩
    | true =>
      rw [List.all_cons,hc,Bool.true_and] at h
      obtain ⟨a,d,b,rfl,ha,hd⟩ := ih h
      exact ⟨c :: a,d,b,rfl,by simp [hc,ha],hd⟩

theorem read_plain_stop (hc : t.text c = false) (hcomma : c ≠ ',') (cs : List Char) :
    readFields t .plain (c :: cs) = none := by
  rw [readFields,if_neg hcomma,if_neg (by simp [hc])]

theorem read_start_stop (hc : t.text c = false) (hcomma : c ≠ ',') (hquote : c ≠ '"') (cs : List Char) :
    readFields t .start (c :: cs) = none := by
  rw [readFields,if_neg hquote,if_neg hcomma,if_neg (by simp [hc])]

theorem read_plain_none (h : f.all t.text = false) (hcomma : ',' ∉ f) (hquote : '"' ∉ f) (rest : List Char) :
    readFields t .start (f ++ rest) = none := by
  obtain ⟨p,c,q,rfl,hp,hc⟩ := exists_first h
  have hc' : c ∈ p ++ c :: q := by simp
  have hne : c ≠ ',' := fun he => hcomma (he ▸ hc')
  rw [List.append_assoc]
  by_cases hnil : p = []
  · subst hnil
    exact read_start_stop hc hne (fun he => hquote (he ▸ hc')) _
  · rw [read_start_append hp hnil,List.cons_append,read_plain_stop hc hne,Option.map_none]

theorem read_quoted_none (h : f.all t.quotable = false) (rest : List Char) :
    readFields t .quoted (f.flatMap double ++ rest) = none := by
  obtain ⟨p,c,q,rfl,hp,hc⟩ := exists_first h
  have hne : c ≠ '"' := by
    rintro rfl
    simp [TextData.quotable] at hc
  rw [List.flatMap_append,List.append_assoc,read_quoted_append hp,List.flatMap_cons,double,if_neg hne,
    List.append_assoc,List.singleton_append,readFields,if_neg hne,if_neg (by simp [hc]),Option.map_none]

theorem read_plain_short (h : f.all t.text = false) (rest : List Char) {fs : Fields}
    (hr : readFields t .plain (f ++ rest) = some fs) : fs.1.length < f.length := by
  obtain ⟨p,c,q,rfl,hp,hc⟩ := exists_first h
  rw [List.append_assoc,read_plain_append hp,List.cons_append] at hr
  by_cases hcomma : c = ','
  · rw [readFields,if_pos hcomma,Option.map_map] at hr
    obtain ⟨gs,-,rfl⟩ := Option.map_eq_some_iff.mp hr
    simp [Fields.addText,Fields.next]
  · rw [read_plain_stop hc hcomma] at hr
    cases hr

end CostConsumer.Foundation.Csv
