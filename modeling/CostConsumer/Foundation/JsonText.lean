import CostConsumer.Foundation.Document
import CostConsumer.Foundation.JsonTokens
set_option autoImplicit false

namespace CostConsumer.Foundation.JsonText

inductive Value (ν : Type) where
  | null : Value ν
  | bool (b : Bool) : Value ν
  | number (n : ν) : Value ν
  | text (s : List Char) : Value ν
  | array (vs : List (Value ν)) : Value ν
  | object (fields : List Char → Option (Value ν)) : Value ν

structure Element (α : Type) where
  comma : Spaces
  value : α

structure Member (α : Type) where
  comma : Spaces
  before : Spaces
  name : List Piece
  colon : Spaces
  value : α

inductive Text where
  | word (before : Spaces) (w : Word) : Text
  | string (before : Spaces) (s : List Piece) : Text
  | array (before : Spaces) (elements : List (Element Text)) (close : Spaces) : Text
  | object (before : Spaces) (members : List (Member Text)) (close : Spaces) : Text

mutual
def Text.laid : Text → List (Spaces × Token)
  | .word before w => [(before,.word w)]
  | .string before s => [(before,.string s)]
  | .array before elements close =>
    (before,.punct .openBracket) :: (laidElements elements).tail ++ [(close,.punct .closeBracket)]
  | .object before members close =>
    (before,.punct .openBrace) :: (laidMembers members).tail ++ [(close,.punct .closeBrace)]

def laidElements : List (Element Text) → List (Spaces × Token)
  | [] => []
  | ⟨comma,value⟩ :: es => (comma,.punct .comma) :: value.laid ++ laidElements es

def laidMembers : List (Member Text) → List (Spaces × Token)
  | [] => []
  | ⟨comma,before,name,colon,value⟩ :: ms =>
    (comma,.punct .comma) :: (before,.string name) :: (colon,.punct .colon) :: value.laid ++
      laidMembers ms
end

/-! The tokens of a text as it is written again, and its value. -/

def written (ts : List (Spaces × Token)) : List Token := ts.map fun p => p.2.escape

def Text.tokens (t : Text) : List Token := written t.laid

section Values
variable {ν : Type} (number : List Char → ν)

def denoteWord (w : Word) : Value ν :=
  if w.chars = "null".toList then .null
  else if w.chars = "true".toList then .bool true
  else if w.chars = "false".toList then .bool false
  else .number (number w.chars)

def lastValue {κ α : Type} [DecidableEq κ] (fields : List (κ × α)) (name : κ) : Option α :=
  (fields.reverse.find? (·.1 = name)).map (·.2)

mutual
def Text.denote : Text → Value ν
  | .word _ w => denoteWord number w
  | .string _ s => .text (unquote s)
  | .array _ elements _ => .array (denoteElements elements)
  | .object _ members _ => .object (lastValue (denoteMembers members))

def denoteElements : List (Element Text) → List (Value ν)
  | [] => []
  | ⟨_,value⟩ :: es => value.denote :: denoteElements es

def denoteMembers : List (Member Text) → List (List Char × Value ν)
  | [] => []
  | ⟨_,_,name,_,value⟩ :: ms => (unquote name,value.denote) :: denoteMembers ms
end

end Values

section Tokens

@[simp] theorem written_append (ts us : List (Spaces × Token)) :
    written (ts ++ us) = written ts ++ written us := List.map_append

@[simp] theorem written_cons (s : Spaces) (t : Token) (ts : List (Spaces × Token)) :
    written ((s,t) :: ts) = t.escape :: written ts := rfl

@[simp] theorem written_nil : written [] = [] := rfl

@[simp] theorem written_tail (ts : List (Spaces × Token)) : written ts.tail = (written ts).tail :=
  List.map_tail

/-- What can follow a value, and cannot begin one. -/
def Closes : Punct → Bool
  | .openBrace | .openBracket => false
  | _ => true

theorem tokens_ne_closes (t : Text) {p : Punct} (hp : Closes p = true) (r r' : List Token) :
    t.tokens ++ r ≠ .punct p :: r' := by
  intro h
  cases t with
  | word before w => simp [Text.tokens,Text.laid,Token.escape] at h
  | string before s => simp [Text.tokens,Text.laid,Token.escape] at h
  | array before elements close =>
    simp [Text.tokens,Text.laid,Token.escape] at h
    simp [Closes,← h.1] at hp
  | object before members close =>
    simp [Text.tokens,Text.laid,Token.escape] at h
    simp [Closes,← h.1] at hp

theorem elements_tail {es es' : List (Element Text)} {r r' : List Token}
    (h : (written (laidElements es)).tail ++ .punct .closeBracket :: r =
      (written (laidElements es')).tail ++ .punct .closeBracket :: r') :
    written (laidElements es) ++ .punct .closeBracket :: r =
      written (laidElements es') ++ .punct .closeBracket :: r' := by
  cases es with
  | nil =>
    cases es' with
    | nil => exact h
    | cons e es' =>
      simp only [laidElements,written_nil,List.tail_nil,List.nil_append,List.cons_append,written_cons,
        written_append,List.tail_cons,List.append_assoc] at h
      exact absurd h.symm (tokens_ne_closes e.value rfl _ _)
  | cons e es =>
    cases es' with
    | nil =>
      simp only [laidElements,written_nil,List.tail_nil,List.nil_append,List.cons_append,written_cons,
        written_append,List.tail_cons,List.append_assoc] at h
      exact absurd h (tokens_ne_closes e.value rfl _ _)
    | cons e' es' =>
      simp only [laidElements,List.cons_append,written_cons,List.tail_cons] at h ⊢
      rw [h]

theorem members_tail {ms ms' : List (Member Text)} {r r' : List Token}
    (h : (written (laidMembers ms)).tail ++ .punct .closeBrace :: r =
      (written (laidMembers ms')).tail ++ .punct .closeBrace :: r') :
    written (laidMembers ms) ++ .punct .closeBrace :: r =
      written (laidMembers ms') ++ .punct .closeBrace :: r' := by
  cases ms with
  | nil =>
    cases ms' with
    | nil => exact h
    | cons m ms' => simp [laidMembers,Token.escape] at h
  | cons m ms =>
    cases ms' with
    | nil => simp [laidMembers,Token.escape] at h
    | cons m' ms' =>
      simp only [laidMembers,List.cons_append,written_cons,List.tail_cons] at h ⊢
      rw [h]

variable {ν : Type} (number : List Char → ν)

mutual
theorem tokens_inj : ∀ (t t' : Text) {r r' : List Token}, t.tokens ++ r = t'.tokens ++ r' →
    t.denote number = t'.denote number ∧ r = r'
  | .word before w, t', r, r', h => by
    cases t' with
    | word before' w' =>
      simp only [Text.tokens,Text.laid,written_cons,written_nil,Token.escape,List.cons_append,
        List.nil_append,List.cons.injEq,Token.word.injEq] at h
      exact ⟨by rw [Text.denote,Text.denote,h.1],h.2⟩
    | _ => simp [Text.tokens,Text.laid,Token.escape] at h
  | .string before s, t', r, r', h => by
    cases t' with
    | string before' s' =>
      simp only [Text.tokens,Text.laid,written_cons,written_nil,Token.escape,List.cons_append,
        List.nil_append,List.cons.injEq,Token.string.injEq] at h
      have hs : unquote s = unquote s' := by rw [← unquote_escape s,h.1,unquote_escape]
      exact ⟨by rw [Text.denote,Text.denote,hs],h.2⟩
    | _ => simp [Text.tokens,Text.laid,Token.escape] at h
  | .array before es close, t', r, r', h => by
    cases t' with
    | array before' es' close' =>
      simp only [Text.tokens,Text.laid,List.cons_append,written_cons,written_append,written_tail,
        written_nil,Token.escape,List.append_assoc,List.nil_append,List.cons.injEq,true_and] at h
      obtain ⟨hes,hr⟩ := elements_inj es es' (elements_tail h)
      exact ⟨by rw [Text.denote,Text.denote,hes],hr⟩
    | _ => simp [Text.tokens,Text.laid,Token.escape] at h
  | .object before ms close, t', r, r', h => by
    cases t' with
    | object before' ms' close' =>
      simp only [Text.tokens,Text.laid,List.cons_append,written_cons,written_append,written_tail,
        written_nil,Token.escape,List.append_assoc,List.nil_append,List.cons.injEq,true_and] at h
      obtain ⟨hms,hr⟩ := members_inj ms ms' (members_tail h)
      exact ⟨by rw [Text.denote,Text.denote,hms],hr⟩
    | _ => simp [Text.tokens,Text.laid,Token.escape] at h

theorem elements_inj : ∀ (es es' : List (Element Text)) {r r' : List Token},
    written (laidElements es) ++ .punct .closeBracket :: r =
      written (laidElements es') ++ .punct .closeBracket :: r' →
    denoteElements number es = denoteElements number es' ∧ r = r'
  | [], es', r, r', h => by
    cases es' with
    | nil => simpa [laidElements] using h
    | cons e' es' => simp [laidElements,Token.escape] at h
  | ⟨comma,v⟩ :: es, es', r, r', h => by
    cases es' with
    | nil => simp [laidElements,Token.escape] at h
    | cons e' es' =>
      simp only [laidElements,List.cons_append,written_cons,written_append,List.append_assoc,
        Token.escape,List.cons.injEq,true_and] at h
      obtain ⟨hv,h⟩ := tokens_inj v e'.value h
      obtain ⟨hes,hr⟩ := elements_inj es es' h
      exact ⟨by rw [denoteElements,denoteElements,hv,hes],hr⟩

theorem members_inj : ∀ (ms ms' : List (Member Text)) {r r' : List Token},
    written (laidMembers ms) ++ .punct .closeBrace :: r =
      written (laidMembers ms') ++ .punct .closeBrace :: r' →
    denoteMembers number ms = denoteMembers number ms' ∧ r = r'
  | [], ms', r, r', h => by
    cases ms' with
    | nil => simpa [laidMembers] using h
    | cons m' ms' => simp [laidMembers,Token.escape] at h
  | ⟨comma,before,name,colon,v⟩ :: ms, ms', r, r', h => by
    cases ms' with
    | nil => simp [laidMembers,Token.escape] at h
    | cons m' ms' =>
      simp only [laidMembers,List.cons_append,written_cons,written_append,List.append_assoc,
        Token.escape,List.cons.injEq,true_and,Token.string.injEq] at h
      obtain ⟨hname,h⟩ := h
      have hname : unquote name = unquote m'.name := by
        rw [← unquote_escape name,hname,unquote_escape]
      obtain ⟨hv,h⟩ := tokens_inj v m'.value h
      obtain ⟨hms,hr⟩ := members_inj ms ms' h
      exact ⟨by rw [denoteMembers,denoteMembers,hname,hv,hms],hr⟩
end

end Tokens

section Separated
open Token

theorem separated_cons {t : Token} {ts : List Token} (ht : t.isWord = false) (h : Separated ts) :
    Separated (t :: ts) := by
  cases ts with
  | nil => exact .singleton t
  | cons u ts => exact List.isChain_cons_cons.mpr ⟨by simp [ht],h⟩

theorem separated_word {w : Word} {ts : List Token} (hw : NoWord ts) (h : Separated ts) :
    Separated (.word w :: ts) := by
  cases ts with
  | nil => exact .singleton _
  | cons u ts => exact List.isChain_cons_cons.mpr ⟨by simp [hw u (by simp)],h⟩

theorem separated_tail {l ts : List Token} (h : Separated (l ++ ts)) : Separated (l.tail ++ ts) := by
  cases l with
  | nil => exact h
  | cons t l => exact List.IsChain.tail h

theorem noWord_punct (p : Punct) (ts : List Token) : NoWord (.punct p :: ts) := by
  simp [NoWord,isWord]

mutual
theorem tokens_separated : ∀ (t : Text) {r : List Token}, NoWord r → Separated r →
    Separated (t.tokens ++ r)
  | .word before w, r, hw, hr => separated_word hw hr
  | .string before s, r, hw, hr => separated_cons rfl hr
  | .array before es close, r, hw, hr => by
    have hes := elements_separated es (noWord_punct .closeBracket r) (separated_cons rfl hr)
    simp only [Text.tokens,Text.laid,List.cons_append,written_cons,written_append,written_tail,
      written_nil,List.append_assoc,List.nil_append]
    exact separated_cons rfl (separated_tail hes)
  | .object before ms close, r, hw, hr => by
    have hms := members_separated ms (noWord_punct .closeBrace r) (separated_cons rfl hr)
    simp only [Text.tokens,Text.laid,List.cons_append,written_cons,written_append,written_tail,
      written_nil,List.append_assoc,List.nil_append]
    exact separated_cons rfl (separated_tail hms)

theorem elements_separated : ∀ (es : List (Element Text)) {r : List Token}, NoWord r → Separated r →
    Separated (written (laidElements es) ++ r)
  | [], r, hw, hr => hr
  | ⟨comma,v⟩ :: es, r, hw, hr => by
    have hrest := elements_separated es hw hr
    have hnext : NoWord (written (laidElements es) ++ r) := by
      cases es with
      | nil => exact hw
      | cons e es => exact noWord_punct _ _
    simp only [laidElements,List.cons_append,written_cons,written_append,List.append_assoc]
    exact separated_cons rfl (tokens_separated v hnext hrest)

theorem members_separated : ∀ (ms : List (Member Text)) {r : List Token}, NoWord r → Separated r →
    Separated (written (laidMembers ms) ++ r)
  | [], r, hw, hr => hr
  | ⟨comma,before,name,colon,v⟩ :: ms, r, hw, hr => by
    have hrest := members_separated ms hw hr
    have hnext : NoWord (written (laidMembers ms) ++ r) := by
      cases ms with
      | nil => exact hw
      | cons m ms => exact noWord_punct _ _
    simp only [laidMembers,List.cons_append,written_cons,written_append,List.append_assoc]
    exact separated_cons rfl (separated_cons rfl (separated_cons rfl (tokens_separated v hnext hrest)))
end

end Separated

theorem written_chars_inj {t t' : Text}
    (h : t.tokens.flatMap Token.chars = t'.tokens.flatMap Token.chars) : t.tokens = t'.tokens := by
  have hsep (u : Text) : Token.Separated u.tokens := by
    have hnil : Token.NoWord [] := by simp [Token.NoWord]
    simpa using tokens_separated u hnil .nil
  exact Token.flatMap_chars_inj (hsep t) (hsep t') h

section Objects

def Member.written (m : Member Text) : List Piece × List Token := (m.name.map Piece.escape,m.value.tokens)

theorem members_written {ms ms' : List (Member Text)} {r r' : List Token}
    (h : written (laidMembers ms) ++ .punct .closeBrace :: r =
      written (laidMembers ms') ++ .punct .closeBrace :: r') :
    ms.map Member.written = ms'.map Member.written := by
  induction ms generalizing ms' with
  | nil =>
    cases ms' with
    | nil => rfl
    | cons m' ms' => simp [laidMembers,Token.escape] at h
  | cons m ms ih =>
    cases ms' with
    | nil => simp [laidMembers,Token.escape] at h
    | cons m' ms' =>
      simp only [laidMembers,List.cons_append,written_cons,written_append,List.append_assoc,
        Token.escape,List.cons.injEq,true_and,Token.string.injEq] at h
      obtain ⟨hname,h⟩ := h
      have hrest := (tokens_inj id m.value m'.value h).2
      have hvalue : m.value.tokens = m'.value.tokens := by
        rw [← hrest] at h
        exact List.append_cancel_right h
      rw [List.map_cons,List.map_cons,ih hrest,Member.written,Member.written,hname,hvalue]

theorem object_written {before before' close close' : Spaces} {ms ms' : List (Member Text)}
    (h : (Text.object before ms close).tokens = (Text.object before' ms' close').tokens) :
    ms.map Member.written = ms'.map Member.written := by
  simp only [Text.tokens,Text.laid,List.cons_append,written_cons,written_append,written_tail,
    written_nil,Token.escape,List.cons.injEq,true_and] at h
  exact members_written (members_tail h)

def Member.chars (m : Member Text) : List Char :=
  (Token.string m.written.1).chars ++ ':' :: m.written.2.flatMap Token.chars

theorem members_chars (ms : List (Member Text)) :
    (written (laidMembers ms)).flatMap Token.chars = ms.flatMap fun m => ',' :: m.chars := by
  induction ms with
  | nil => rfl
  | cons m ms ih =>
    simp only [laidMembers,List.cons_append,written_cons,written_append,List.flatMap_cons,
      List.flatMap_append,ih]
    simp [Member.chars,Member.written,Token.escape,Token.chars,Punct.char,Text.tokens]

theorem object_chars (before close : Spaces) (ms : List (Member Text)) :
    (Text.object before ms close).tokens.flatMap Token.chars =
      '\x7b' :: (ms.flatMap fun m => ',' :: m.chars).tail ++ ['\x7d'] := by
  have htail : (written (laidMembers ms)).tail.flatMap Token.chars =
      (ms.flatMap fun m => ',' :: m.chars).tail := by
    rw [← members_chars]
    cases ms with
    | nil => rfl
    | cons m ms => rfl
  simp only [Text.tokens,Text.laid,List.cons_append,written_cons,written_append,written_tail,
    written_nil,List.flatMap_cons,List.flatMap_append,List.flatMap_nil,List.append_nil,htail]
  rfl

end Objects

section Raw

def Text.raw (t : Text) : List Char := (laidChars t.laid).dropWhile isSpace

theorem compact_raw (t : Text) : compact false t.raw = t.tokens.flatMap Token.chars := by
  have hdrop (cs : List Char) : compact false (cs.dropWhile isSpace) = compact false cs := by
    induction cs with
    | nil => rfl
    | cons c cs ih =>
      by_cases hc : isSpace c = true
      · rw [List.dropWhile_cons_of_pos hc,ih,compact,if_pos hc]
      · rw [List.dropWhile_cons_of_neg hc]
  rw [Text.raw,hdrop,compact_laid]
  rfl

theorem Text.raw_ne_nil (t : Text) : t.raw ≠ [] := by
  intro h
  have hchars := compact_raw t
  rw [h] at hchars
  cases ht : t.tokens with
  | nil => exact absurd ht (by cases t <;> simp [Text.tokens,Text.laid])
  | cons u us =>
    rw [ht,List.flatMap_cons] at hchars
    exact absurd hchars.symm (u.chars_ne_nil _)

def documentWord (w : Word) : Document :=
  if w.chars = "null".toList then .null
  else if w.chars = "true".toList then .bool true
  else if w.chars = "false".toList then .bool false
  else .number (String.ofList w.chars)

mutual
def Text.document : Text → Document
  | .word _ w => documentWord w
  | .string _ s => .text (String.ofList (unquote s))
  | .array _ elements _ => .array (documentElements elements)
  | .object _ members _ => .object (documentMembers members)

def documentElements : List (Element Text) → List Document
  | [] => []
  | ⟨_,value⟩ :: es => value.document :: documentElements es

def documentMembers : List (Member Text) → Members
  | [] => []
  | ⟨_,_,name,_,value⟩ :: ms => (String.ofList (unquote name),value.document) :: documentMembers ms
end

def Text.members : Text → List (String × Text)
  | .object _ ms _ => ms.map fun m => (String.ofList (unquote m.name),m.value)
  | _ => []

end Raw

end CostConsumer.Foundation.JsonText
