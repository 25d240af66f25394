import Mathlib.Data.List.Chain
set_option autoImplicit false

/-!
The tokens of JSON texts and what `encoding/json` makes of them when it writes a text again: white
space is dropped, and a few characters of strings are escaped.
-/

namespace CostConsumer.Foundation.JsonText

/-! Characters and literals. -/

def isSpace (c : Char) : Bool := c = ' ' || c = '\t' || c = '\n' || c = '\r'

structure Spaces where
  chars : List Char
  blank : chars.all isSpace = true

def noSpaces : Spaces := ⟨[],rfl⟩

/-- The characters of numbers, null, true and false. -/
def wordChar (c : Char) : Bool := c.isAlphanum || c = '+' || c = '-' || c = '.'

/-- A literal of these characters, whether JSON has it or not. -/
structure Word where
  chars : List Char
  nonempty : chars ≠ []
  word : chars.all wordChar = true

def hexValue (c : Char) : Option Nat :=
  if '0' ≤ c ∧ c ≤ '9' then some (c.toNat - 48)
  else if 'a' ≤ c ∧ c ≤ 'f' then some (c.toNat - 87)
  else if 'A' ≤ c ∧ c ≤ 'F' then some (c.toNat - 55)
  else none

abbrev Hex := {c : Char // (hexValue c).isSome = true}

def Hex.value (h : Hex) : Nat := (hexValue h.1).get h.2

def shortValue (c : Char) : Option Char :=
  if c = '"' ∨ c = '\\' ∨ c = '/' then some c
  else if c = 'b' then some '\x08'
  else if c = 'f' then some '\x0c'
  else if c = 'n' then some '\n'
  else if c = 'r' then some '\r'
  else if c = 't' then some '\t'
  else none

def isPlain (c : Char) : Bool := 0x20 ≤ c.toNat && c ≠ '"' && c ≠ '\\'

inductive Piece where
  | plain (c : Char) (h : isPlain c = true) : Piece
  | short (c : Char) (h : (shortValue c).isSome = true) : Piece
  | code (a b c d : Hex) : Piece

inductive Punct where
  | openBrace | closeBrace | openBracket | closeBracket | comma | colon
  deriving DecidableEq

inductive Token where
  | punct (p : Punct) : Token
  | word (w : Word) : Token
  | string (s : List Piece) : Token

namespace Piece

def chars : Piece → List Char
  | plain c _ => [c]
  | short c _ => ['\\',c]
  | code a b c d => ['\\','u',a.1,b.1,c.1,d.1]

theorem isPlain_spec {c : Char} (h : isPlain c = true) : c ≠ '"' ∧ c ≠ '\\' := by
  simp only [isPlain,Bool.and_eq_true,decide_eq_true_eq] at h
  exact ⟨h.1.2,h.2⟩

theorem chars_ne_quote (p : Piece) (r r' : List Char) : p.chars ++ r ≠ '"' :: r' := by
  intro h
  cases p with
  | plain c hc => exact (isPlain_spec hc).1 (List.cons.inj h).1
  | short c hc => simp [chars] at h
  | code a b c d => simp [chars] at h

theorem chars_inj {p p' : Piece} {r r' : List Char} (h : p.chars ++ r = p'.chars ++ r') :
    p = p' ∧ r = r' := by
  cases p with
  | plain c hc =>
    cases p' with
    | plain c' hc' => simpa [chars] using h
    | short c' hc' => exact absurd (List.cons.inj h).1 (isPlain_spec hc).2
    | code a b c d => exact absurd (List.cons.inj h).1 (isPlain_spec hc).2
  | short c hc =>
    cases p' with
    | plain c' hc' => exact absurd (List.cons.inj h).1.symm (isPlain_spec hc').2
    | short c' hc' => simpa [chars] using h
    | code a b c d =>
      simp only [chars,List.cons_append,List.nil_append,List.cons.injEq] at h
      simp [shortValue,h.2.1] at hc
  | code a b c d =>
    cases p' with
    | plain c' hc' => exact absurd (List.cons.inj h).1.symm (isPlain_spec hc').2
    | short c' hc' =>
      simp only [chars,List.cons_append,List.nil_append,List.cons.injEq] at h
      simp [shortValue,← h.2.1] at hc'
    | code a' b' c' d' =>
      simp only [chars,List.cons_append,List.nil_append,List.cons.injEq,true_and] at h
      obtain ⟨ha,hb,hc,hd,hr⟩ := h
      rw [Subtype.ext ha,Subtype.ext hb,Subtype.ext hc,Subtype.ext hd]
      exact ⟨rfl,hr⟩

theorem literal_inj {ps ps' : List Piece} {r r' : List Char}
    (h : ps.flatMap chars ++ '"' :: r = ps'.flatMap chars ++ '"' :: r') : ps = ps' ∧ r = r' := by
  induction ps generalizing ps' with
  | nil =>
    cases ps' with
    | nil => simpa using h
    | cons p ps' =>
      rw [List.flatMap_cons,List.append_assoc] at h
      exact absurd h.symm (p.chars_ne_quote _ _)
  | cons p ps ih =>
    cases ps' with
    | nil =>
      rw [List.flatMap_cons,List.append_assoc] at h
      exact absurd h (p.chars_ne_quote _ _)
    | cons p' ps' =>
      rw [List.flatMap_cons,List.flatMap_cons,List.append_assoc,List.append_assoc] at h
      obtain ⟨hp,h⟩ := chars_inj h
      obtain ⟨hps,hr⟩ := ih h
      exact ⟨by rw [hp,hps],hr⟩

end Piece

/-! Tokens. -/

def Punct.char : Punct → Char
  | openBrace => '\x7b'
  | closeBrace => '\x7d'
  | openBracket => '['
  | closeBracket => ']'
  | comma => ','
  | colon => ':'

namespace Token

def chars : Token → List Char
  | punct p => [p.char]
  | word w => w.chars
  | string s => '"' :: s.flatMap Piece.chars ++ ['"']

def isWord : Token → Bool
  | word _ => true
  | _ => false

def Separated (ts : List Token) : Prop := ts.IsChain fun t t' => ¬ (t.isWord = true ∧ t'.isWord = true)

def NoWord (ts : List Token) : Prop := ∀ t ∈ ts.head?, t.isWord = false

theorem noWord_chars {ts : List Token} (h : NoWord ts) :
    ∀ c ∈ (ts.flatMap chars).head?, wordChar c = false := by
  cases ts with
  | nil => simp
  | cons t ts =>
    have ht := h t (by simp)
    cases t with
    | punct p => cases p <;> simp [chars,Punct.char] <;> decide
    | word w => cases ht
    | string s => simp [chars]; decide

theorem word_inj {w w' r r' : List Char} (hw : w.all wordChar = true) (hw' : w'.all wordChar = true)
    (hr : ∀ c ∈ r.head?, wordChar c = false) (hr' : ∀ c ∈ r'.head?, wordChar c = false)
    (h : w ++ r = w' ++ r') : w = w' ∧ r = r' := by
  have htake (v s : List Char) (hv : v.all wordChar = true) (hs : ∀ c ∈ s.head?, wordChar c = false) :
      (v ++ s).takeWhile wordChar = v := by
    rw [List.takeWhile_append_of_pos (fun c hc => List.all_eq_true.mp hv c hc)]
    cases s with
    | nil => simp
    | cons c s => simp [hs c (by simp)]
  have hww : w = w' := by rw [← htake w r hw hr,← htake w' r' hw' hr',h]
  subst hww
  exact ⟨rfl,List.append_cancel_left h⟩

theorem chars_head (t : Token) : ∃ c cs, t.chars = c :: cs ∧ wordChar c = t.isWord := by
  cases t with
  | punct p => exact ⟨p.char,[],rfl,by cases p <;> decide⟩
  | word w =>
    obtain ⟨c,cs,hcs⟩ := List.exists_cons_of_ne_nil w.nonempty
    have hw := w.word
    rw [hcs,List.all_cons,Bool.and_eq_true] at hw
    exact ⟨c,cs,hcs,hw.1⟩
  | string s => exact ⟨'"',_,rfl,rfl⟩

theorem Separated.tail_noWord {t : Token} {ts : List Token} (h : Separated (t :: ts))
    (ht : t.isWord = true) : NoWord ts := by
  intro t' ht'
  cases ts with
  | nil => cases ht'
  | cons u ts =>
    cases ht'
    have hne := (List.isChain_cons_cons.mp h).1
    simpa [ht] using hne

theorem chars_ne_nil (t : Token) (r : List Char) : t.chars ++ r ≠ [] := by
  obtain ⟨c,cs,hc,-⟩ := t.chars_head
  simp [hc]

theorem chars_inj {t t' : Token} {ts ts' : List Token} (h : Separated (t :: ts))
    (h' : Separated (t' :: ts'))
    (he : t.chars ++ ts.flatMap chars = t'.chars ++ ts'.flatMap chars) :
    t = t' ∧ ts.flatMap chars = ts'.flatMap chars := by
  have hword : t.isWord = t'.isWord := by
    obtain ⟨c,cs,hc,hw⟩ := t.chars_head
    obtain ⟨c',cs',hc',hw'⟩ := t'.chars_head
    rw [hc,hc',List.cons_append,List.cons_append] at he
    rw [← hw,← hw',(List.cons.inj he).1]
  cases t with
  | punct p =>
    cases t' with
    | punct p' =>
      have hp : p.char = p'.char := (List.cons.inj he).1
      have : p = p' := by cases p <;> cases p' <;> first | rfl | exact absurd hp (by decide)
      exact ⟨by rw [this],(List.cons.inj he).2⟩
    | word w => cases hword
    | string s =>
      have hp : p.char = '"' := (List.cons.inj he).1
      exact absurd hp (by cases p <;> decide)
  | word w =>
    cases t' with
    | punct p => cases hword
    | word w' =>
      obtain ⟨hw,hr⟩ := word_inj w.word w'.word (noWord_chars (h.tail_noWord rfl))
        (noWord_chars (h'.tail_noWord rfl)) he
      cases w
      cases w'
      cases hw
      exact ⟨rfl,hr⟩
    | string s => cases hword
  | string s =>
    cases t' with
    | punct p =>
      have hp : '"' = p.char := (List.cons.inj he).1
      exact absurd hp (by cases p <;> decide)
    | word w => cases hword
    | string s' =>
      simp only [chars,List.cons_append,List.append_assoc,List.nil_append,List.cons.injEq,true_and] at he
      obtain ⟨hs,hr⟩ := Piece.literal_inj he
      exact ⟨by rw [hs],hr⟩

theorem flatMap_chars_inj {ts ts' : List Token} (h : Separated ts) (h' : Separated ts')
    (he : ts.flatMap chars = ts'.flatMap chars) : ts = ts' := by
  induction ts generalizing ts' with
  | nil =>
    cases ts' with
    | nil => rfl
    | cons t ts' => exact absurd he.symm (t.chars_ne_nil _)
  | cons t ts ih =>
    cases ts' with
    | nil => exact absurd he (t.chars_ne_nil _)
    | cons t' ts' =>
      rw [List.flatMap_cons,List.flatMap_cons] at he
      obtain ⟨ht,hr⟩ := chars_inj h h' he
      have hts : ts = ts' := ih (List.IsChain.tail h) (List.IsChain.tail h') hr
      rw [ht,hts]

end Token

/-! Writing a text again. -/

def isHtml (c : Char) : Bool :=
  c = '<' || c = '>' || c = '&' || c.toNat = 0x2028 || c.toNat = 0x2029

def hexChar (n : Fin 16) : Char := if n.val < 10 then Char.ofNat (48+n) else Char.ofNat (87+n)

def hex (n : Nat) : Hex :=
  ⟨hexChar (Fin.ofNat 16 n),by
    have hall : ∀ m : Fin 16, (hexValue (hexChar m)).isSome = true := by decide
    exact hall _⟩

def codeOf (c : Char) : Piece :=
  .code (hex (c.toNat/4096)) (hex (c.toNat/256)) (hex (c.toNat/16)) (hex c.toNat)

def Piece.escape : Piece → Piece
  | plain c h => if isHtml c then codeOf c else plain c h
  | p => p

def Token.escape : Token → Token
  | string s => string (s.map Piece.escape)
  | t => t

/-- What `compact` does to a text, outside strings and in them. -/
def compact : Bool → List Char → List Char
  | _, [] => []
  | false, c :: cs => if isSpace c then compact false cs else c :: compact (c = '"') cs
  | true, '\\' :: c :: cs => '\\' :: c :: compact true cs
  | true, c :: cs => (if isHtml c then (codeOf c).chars else [c]) ++ compact (c ≠ '"') cs

def laidChars (ts : List (Spaces × Token)) : List Char := ts.flatMap fun p => p.1.chars ++ p.2.chars

section Compact

theorem compact_spaces (s : Spaces) (r : List Char) : compact false (s.chars ++ r) = compact false r := by
  obtain ⟨cs,hcs⟩ := s
  dsimp only
  induction cs with
  | nil => rfl
  | cons c cs ih =>
    rw [List.all_cons,Bool.and_eq_true] at hcs
    rw [List.cons_append,compact,if_pos hcs.1,ih hcs.2]

theorem wordChar_spec {c : Char} (h : wordChar c = true) : isSpace c = false ∧ c ≠ '"' := by
  constructor
  · by_contra hs
    simp only [isSpace,Bool.not_eq_false,Bool.or_eq_true,decide_eq_true_eq] at hs
    rcases hs with ((rfl | rfl) | rfl) | rfl <;> exact absurd h (by decide)
  · rintro rfl
    exact absurd h (by decide)

theorem compact_word {cs : List Char} (h : cs.all wordChar = true) (r : List Char) :
    compact false (cs ++ r) = cs ++ compact false r := by
  induction cs with
  | nil => rfl
  | cons c cs ih =>
    rw [List.all_cons,Bool.and_eq_true] at h
    obtain ⟨hspace,hquote⟩ := wordChar_spec h.1
    simp [compact,hspace,hquote,ih h.2]

theorem hex_spec (h : Hex) : isHtml h.1 = false ∧ h.1 ≠ '"' ∧ h.1 ≠ '\\' := by
  obtain ⟨c,hc⟩ := h
  have hrange : c.toNat ≤ 102 := by
    unfold hexValue at hc
    split_ifs at hc with h₁ h₂ h₃
    · exact (show c.toNat ≤ '9'.toNat from h₁.2).trans (by decide)
    · exact h₂.2
    · exact (show c.toNat ≤ 'F'.toNat from h₃.2).trans (by decide)
    · cases hc
  refine ⟨?_,?_,?_⟩
  · by_contra hs
    simp only [isHtml,Bool.not_eq_false,Bool.or_eq_true,decide_eq_true_eq] at hs
    rcases hs with (((rfl | rfl) | rfl) | hs) | hs
    · exact absurd hc (by decide)
    · exact absurd hc (by decide)
    · exact absurd hc (by decide)
    · omega
    · omega
  · rintro rfl
    exact absurd hc (by decide)
  · rintro rfl
    exact absurd hc (by decide)

theorem compact_inside {c : Char} (hq : c ≠ '"') (hb : c ≠ '\\') (r : List Char) :
    compact true (c :: r) = (if isHtml c then (codeOf c).chars else [c]) ++ compact true r := by
  rw [compact]
  · simp [hq]
  · simp [hb]

theorem compact_piece (p : Piece) (r : List Char) :
    compact true (p.chars ++ r) = p.escape.chars ++ compact true r := by
  cases p with
  | plain c hc =>
    obtain ⟨hq,hb⟩ := Piece.isPlain_spec hc
    rw [Piece.chars,List.singleton_append,compact_inside hq hb,Piece.escape]
    split <;> rfl
  | short c hc => rfl
  | code a b c d =>
    have hdigit (h : Hex) (r : List Char) : compact true (h.1 :: r) = h.1 :: compact true r := by
      obtain ⟨hhtml,hq,hb⟩ := hex_spec h
      rw [compact_inside hq hb,hhtml,if_neg Bool.false_ne_true,List.singleton_append]
    have hstart (r : List Char) : compact true ('\\' :: 'u' :: r) = '\\' :: 'u' :: compact true r := rfl
    simp only [Piece.chars,Piece.escape,List.cons_append,List.nil_append,hstart,hdigit]

theorem compact_literal (s : List Piece) (r : List Char) :
    compact true (s.flatMap Piece.chars ++ '"' :: r) =
      (s.map Piece.escape).flatMap Piece.chars ++ '"' :: compact false r := by
  induction s with
  | nil => simp [compact,isHtml]
  | cons p s ih =>
    rw [List.flatMap_cons,List.append_assoc,compact_piece,ih,List.map_cons,List.flatMap_cons,
      List.append_assoc]

theorem compact_token (t : Token) (r : List Char) :
    compact false (t.chars ++ r) = t.escape.chars ++ compact false r := by
  cases t with
  | punct p => cases p <;> rfl
  | word w => exact compact_word w.word r
  | string s =>
    simp only [Token.chars,Token.escape,List.cons_append,List.append_assoc,List.nil_append]
    rw [compact,if_neg (by decide)]
    simp only [decide_true,compact_literal]

theorem compact_laid (ts : List (Spaces × Token)) :
    compact false (laidChars ts) = (ts.map fun p => p.2.escape).flatMap Token.chars := by
  induction ts with
  | nil => rfl
  | cons p ts ih =>
    rw [laidChars,List.flatMap_cons,List.append_assoc,compact_spaces,compact_token]
    rw [laidChars] at ih
    rw [ih,List.map_cons,List.flatMap_cons]

end Compact

/-! The characters a literal denotes. -/

def codeUnit (a b c d : Hex) : Nat := 4096*a.value + 256*b.value + 16*c.value + d.value

/-- The two halves of a character beyond the basic plane. -/
def isPair (m n : Nat) : Bool := 0xd800 ≤ m && m < 0xdc00 && 0xdc00 ≤ n && n < 0xe000

def single (n : Nat) : Char := if 0xd800 ≤ n ∧ n < 0xe000 then Char.ofNat 0xfffd else Char.ofNat n

def unquote : List Piece → List Char
  | [] => []
  | .plain c _ :: ps => c :: unquote ps
  | .short c h :: ps => (shortValue c).get h :: unquote ps
  | .code a b c d :: .code a' b' c' d' :: ps =>
    let m := codeUnit a b c d
    let n := codeUnit a' b' c' d'
    if isPair m n then Char.ofNat (0x10000 + (m-0xd800)*0x400 + (n-0xdc00)) :: unquote ps
    else single m :: unquote (.code a' b' c' d' :: ps)
  | .code a b c d :: ps => single (codeUnit a b c d) :: unquote ps

def quoteChar (c : Char) : Piece :=
  if h : isPlain c = true then (if isHtml c then codeOf c else .plain c h)
  else if c = '"' then .short '"' (by decide)
  else if c = '\\' then .short '\\' (by decide)
  else if c = '\x08' then .short 'b' (by decide)
  else if c = '\x0c' then .short 'f' (by decide)
  else if c = '\n' then .short 'n' (by decide)
  else if c = '\r' then .short 'r' (by decide)
  else if c = '\t' then .short 't' (by decide)
  else codeOf c

def quote (s : List Char) : List Piece := s.map quoteChar

section Unquote
variable {c : Char} {ps : List Piece}

theorem value_hex (n : Nat) : (hex n).value = n % 16 := by
  have hall : ∀ m : Fin 16, (hexValue (hexChar m)) = some m.val := by decide
  simp [Hex.value,hex,hall]

theorem codeUnit_hex {n : Nat} (h : n < 65536) :
    codeUnit (hex (n/4096)) (hex (n/256)) (hex (n/16)) (hex n) = n := by
  simp only [codeUnit,value_hex]
  omega

theorem isHtml_toNat (h : isHtml c = true) : c.toNat < 0xd800 := by
  simp only [isHtml,Bool.or_eq_true,decide_eq_true_eq] at h
  rcases h with (((rfl | rfl) | rfl) | h) | h
  · decide
  · decide
  · decide
  · omega
  · omega

theorem unquote_code {a b c d : Hex} (h : codeUnit a b c d < 0xd800) :
    unquote (.code a b c d :: ps) = Char.ofNat (codeUnit a b c d) :: unquote ps := by
  have hsingle : single (codeUnit a b c d) = Char.ofNat (codeUnit a b c d) := if_neg (by omega)
  have hpair (n : Nat) : isPair (codeUnit a b c d) n = false := by simp [isPair,h]
  cases ps with
  | nil => simp [unquote,hsingle]
  | cons p ps => cases p <;> simp [unquote,hsingle,hpair]

theorem unquote_codeOf (h : c.toNat < 0xd800) : unquote (codeOf c :: ps) = c :: unquote ps := by
  have hunit := codeUnit_hex (show c.toNat < 65536 by omega)
  rw [codeOf,unquote_code (by omega),hunit,Char.ofNat_toNat]

theorem unquote_quoteChar (c : Char) (ps : List Piece) :
    unquote (quoteChar c :: ps) = c :: unquote ps := by
  unfold quoteChar
  split_ifs with hplain hhtml h₁ h₂ h₃ h₄ h₅ h₆ h₇
  · exact unquote_codeOf (isHtml_toNat hhtml)
  · rfl
  · subst h₁; rfl
  · subst h₂; rfl
  · subst h₃; rfl
  · subst h₄; rfl
  · subst h₅; rfl
  · subst h₆; rfl
  · subst h₇; rfl
  · simp only [isPlain,h₁,h₂,ne_eq,not_false_eq_true,decide_true,Bool.and_true,decide_eq_true_eq] at hplain
    exact unquote_codeOf (by omega)

theorem unquote_quote (s : List Char) : unquote (quote s) = s := by
  induction s with
  | nil => rfl
  | cons c s ih => rw [quote,List.map_cons,unquote_quoteChar,← quote,ih]

theorem quote_injective : Function.Injective quote :=
  Function.LeftInverse.injective unquote_quote

theorem escape_quote (s : List Char) : (quote s).map Piece.escape = quote s := by
  rw [quote,List.map_map]
  refine List.map_congr_left fun c _ => ?_
  unfold Function.comp quoteChar
  split_ifs with hplain hhtml
  · rfl
  · exact if_neg hhtml
  all_goals rfl

theorem unquote_escape (ps : List Piece) : unquote (ps.map Piece.escape) = unquote ps := by
  fun_induction unquote ps with
  | case1 => rfl
  | case2 c h ps ih =>
    rw [List.map_cons,Piece.escape]
    split
    · rename_i hhtml
      rw [unquote_codeOf (isHtml_toNat hhtml),ih]
    · rw [unquote,ih]
  | case3 c h ps ih => simp only [List.map_cons,Piece.escape,unquote,ih]
  | case4 a b c d a' b' c' d' ps m n hpair ih =>
    simp only [List.map_cons,Piece.escape,unquote]
    rw [if_pos hpair,ih]
  | case5 a b c d a' b' c' d' ps m n hpair ih =>
    simp only [List.map_cons,Piece.escape] at ih ⊢
    rw [unquote,if_neg hpair,ih]
  | case6 a b c d ps hcode ih =>
    -- a character escaped after half a pair is not its other half
    cases ps with
    | nil => rfl
    | cons p ps =>
      rw [← ih]
      cases p with
      | plain e h =>
        simp only [List.map_cons,Piece.escape]
        split
        · rename_i hhtml
          have hlow := isHtml_toNat hhtml
          have hunit := codeUnit_hex (show e.toNat < 65536 by omega)
          rw [codeOf,unquote,hunit,if_neg]
          simp only [isPair,Bool.and_eq_true,decide_eq_true_eq]
          omega
        · simp only [unquote]
      | short e h => simp only [List.map_cons,Piece.escape,unquote]
      | code a' b' c' d' => exact (hcode a' b' c' d' ps rfl).elim

end Unquote

end CostConsumer.Foundation.JsonText
