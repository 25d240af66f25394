import Mathlib.Data.List.Basic
import Mathlib.Logic.Function.Basic
set_option autoImplicit false

namespace CostConsumer.Foundation.Sql

inductive Token where
  | word : String → Token
  | left : Token
  | right : Token
  | comma : Token
  | param : Nat → Token
  deriving DecidableEq, Repr

/-- The token that the scanner is in the middle of. -/
inductive Held where
  | nothing : Held
  | word : List Char → Held
  | dollar : Held
  | param : Nat → Held
  deriving DecidableEq

def Held.tokens : Held → Option (List Token)
  | .nothing => some []
  | .word w => some [.word (String.ofList w)]
  | .dollar => none
  | .param n => some [.param n]

def delimiter (c : Char) : Option (List Token) :=
  if c = '(' then some [.left]
  else if c = ')' then some [.right]
  else if c = ',' then some [.comma]
  else if c.isWhitespace then some []
  else none

def Held.push (c : Char) : Held → Option Held
  | .nothing => if c = '$' then some .dollar else if c.isAlpha then some (.word [c]) else none
  | .word w => if c.isAlphanum || c = '_' then some (.word (w ++ [c])) else none
  | .dollar => if c.isDigit then some (.param (c.toNat - '0'.toNat)) else none
  | .param n => if c.isDigit then some (.param (10*n + (c.toNat - '0'.toNat))) else none

def scan : Held → List Char → Option (List Token × Held)
  | h, [] => some ([],h)
  | h, c :: cs =>
    match delimiter c with
    | some ts =>
      h.tokens.bind (fun a => (scan .nothing cs).map (fun (b,h') => (a ++ ts ++ b,h')))
    | none => (h.push c).bind (fun h' => scan h' cs)

def tokens (query : String) : Option (List Token) :=
  (scan .nothing query.toList).bind (fun (ts,h) => h.tokens.map (ts ++ ·))

def Token.name? : Token → Option String
  | .word w => some w
  | _ => none

def Token.param? : Token → Option Nat
  | .param n => some n
  | _ => none

def placeholders (query : String) : Option (List Nat) :=
  (tokens query).map (fun ts => ts.filterMap Token.param?)

def items {α : Type} (f : Token → Option α) : List Token → Option (List α × List Token)
  | t :: .right :: ts => (f t).map (fun a => ([a],ts))
  | t :: .comma :: ts => (f t).bind (fun a => (items f ts).map (fun (as,rest) => (a :: as,rest)))
  | _ => none

def tuples : Nat → List Token → Option (List (List Nat))
  | fuel+1, .left :: ts =>
    (items Token.param? ts).bind (fun (row,rest) =>
      match rest with
      | [] => some [row]
      | .comma :: rest => (tuples fuel rest).map (row :: ·)
      | _ => none)
  | _, _ => none

structure Insert where
  table : String
  columns : List String
  rows : List (List Nat)
  deriving DecidableEq, Repr

def parseInsert : List Token → Option Insert
  | .word "INSERT" :: .word "INTO" :: .word table :: .left :: ts =>
    (items Token.name? ts).bind (fun (columns,rest) =>
      match rest with
      | .word "VALUES" :: rest => (tuples (rest.length+1) rest).map (fun rows => ⟨table,columns,rows⟩)
      | _ => none)
  | _ => none

def argument {β : Type} (args : List β) : Nat → Option β
  | 0 => none
  | n+1 => args[n]?

def Insert.bindRow {β : Type} (ins : Insert) (args : List β) (row : List Nat) :
    Option (List (String × β)) :=
  if row.length = ins.columns.length then (row.mapM (argument args)).map ins.columns.zip else none

/-- The highest placeholder is the number of parameters. -/
def Insert.parameters (ins : Insert) : Nat := ins.rows.flatten.foldr max 0

structure Call (β : Type) where
  query : String
  args : List β

inductive Failure (ε : Type) where
  | malformed : Failure ε
  | parameters : Failure ε
  | refused : ε → Failure ε

section Execute

variable {β ρ ε : Type}

/-- Append rows to a table, each as `accept` stores it, or none if it refuses one. -/
def insertRows (accept : String → List (String × β) → Except ε ρ) (table : String)
    (rows : List (List (String × β))) (db : String → List ρ) :
    Except (Failure ε) (String → List ρ) :=
  match rows.mapM (accept table) with
  | .error e => .error (.refused e)
  | .ok new => .ok (Function.update db table (db table ++ new))

/-- The protocol counts parameters with 16 bits. -/
def exec (accept : String → List (String × β) → Except ε ρ) (call : Call β) (db : String → List ρ) :
    Except (Failure ε) (String → List ρ) :=
  match (tokens call.query).bind parseInsert with
  | none => .error .malformed
  | some ins =>
    if call.args.length > 65535 ∨ ins.parameters ≠ call.args.length then .error .parameters
    else match ins.rows.mapM (ins.bindRow call.args) with
      | none => .error .malformed
      | some rows => insertRows accept ins.table rows db

@[simp] theorem insertRows_nil (accept : String → List (String × β) → Except ε ρ) (table : String)
    (db : String → List ρ) : insertRows accept table [] db = .ok db := by
  simp [insertRows,pure,Except.pure]

theorem insertRows_cons (accept : String → List (String × β) → Except ε ρ) (table : String)
    (row : List (String × β)) (rows : List (List (String × β))) (db : String → List ρ) :
    insertRows accept table (row :: rows) db =
      (insertRows accept table [row] db).bind (insertRows accept table rows) := by
  unfold insertRows
  rw [List.mapM_cons,List.mapM_cons,List.mapM_nil]
  cases accept table row with
  | error e => rfl
  | ok r =>
    cases rows.mapM (accept table) with
    | error e => rfl
    | ok new => simp [Except.bind,bind,pure,Except.pure]

theorem foldlM_insertRows {α : Type} (accept : String → List (String × β) → Except ε ρ) (table : String)
    (row : α → List (String × β)) (es : List α) (db : String → List ρ) :
    es.foldlM (fun db e => insertRows accept table [row e] db) db =
      insertRows accept table (es.map row) db := by
  induction es generalizing db with
  | nil => simp [pure,Except.pure]
  | cons e es ih =>
    rw [List.foldlM_cons,List.map_cons,insertRows_cons accept table (row e) (es.map row)]
    cases insertRows accept table [row e] db with
    | error e => rfl
    | ok db' => exact ih db'

theorem mapM_of_check {α : Type} {f : α → Except ε ρ} {g : α → ρ} {p : α → Prop} [DecidablePred p] {e : ε}
    (h : ∀ a, f a = if p a then .ok (g a) else .error e) (as : List α) :
    as.mapM f = if as.all (p ·) then .ok (as.map g) else .error e := by
  induction as with
  | nil => rfl
  | cons a as ih =>
    rw [List.mapM_cons,ih,h,List.all_cons]
    by_cases ha : p a
    · rw [if_pos ha,decide_eq_true ha,Bool.true_and]
      cases as.all (p ·) with
      | true => rfl
      | false => rfl
    · rw [if_neg ha,decide_eq_false ha]
      rfl

theorem insertRows_of_check {α : Type} {accept : String → List (String × β) → Except ε ρ} {table : String}
    {row : α → List (String × β)} {g : α → ρ} {p : α → Prop} [DecidablePred p] {e : ε}
    (h : ∀ a, accept table (row a) = if p a then .ok (g a) else .error e) (as : List α)
    (db : String → List ρ) :
    insertRows accept table (as.map row) db =
      if as.all (p ·) then .ok (Function.update db table (db table ++ as.map g))
      else .error (.refused e) := by
  rw [insertRows,List.mapM_map,mapM_of_check (f := accept table ∘ row) h]
  cases as.all (p ·) with
  | true => rfl
  | false => rfl

end Execute

/-- The text of a list of placeholders, from behind the left parenthesis on. -/
def listText : List Nat → List Char
  | [] => [')']
  | [n] => '$' :: (Nat.toDigits 10 n ++ [')'])
  | n :: ns => '$' :: (Nat.toDigits 10 n ++ ',' :: listText ns)

def listTokens {α : Type} (f : α → Token) : List α → List Token
  | [] => [.right]
  | [a] => [f a,.right]
  | a :: as => f a :: .comma :: listTokens f as

def tupleText (row : List Nat) : List Char := '(' :: listText row

def tupleTokens (row : List Nat) : List Token := .left :: listTokens .param row

def rowTokens : List (List Nat) → List Token
  | [] => []
  | row :: rows => tupleTokens row ++ rows.flatMap (fun row => .comma :: tupleTokens row)

def headerTokens (table : String) (columns : List String) : List Token :=
  .word "INSERT" :: .word "INTO" :: .word table :: .left ::
    (listTokens .word columns ++ [.word "VALUES"])

def sprintf : List Char → List Nat → List Char
  | '%' :: 'd' :: format, n :: ns => Nat.toDigits 10 n ++ sprintf format ns
  | c :: format, ns => c :: sprintf format ns
  | [], _ => []

section Scan

theorem scan_append {h h' h'' : Held} {xs ys : List Char} {ts us : List Token}
    (hx : scan h xs = some (ts,h')) (hy : scan h' ys = some (us,h'')) :
    scan h (xs ++ ys) = some (ts ++ us,h'') := by
  induction xs generalizing h ts with
  | nil =>
    cases hx
    exact hy
  | cons c xs ih =>
    rw [List.cons_append]
    unfold scan at hx ⊢
    cases hd : delimiter c with
    | some d =>
      simp only [hd] at hx ⊢
      cases ha : h.tokens with
      | none => simp [ha] at hx
      | some a =>
        cases hs : scan .nothing xs with
        | none => simp [ha,hs] at hx
        | some r =>
          obtain ⟨b,k⟩ := r
          simp only [ha,hs,Option.bind_some,Option.map_some,Option.some.injEq,Prod.mk.injEq] at hx
          obtain ⟨rfl,rfl⟩ := hx
          simp [ih hs]
    | none =>
      simp only [hd] at hx ⊢
      cases hp : h.push c with
      | none => simp [hp] at hx
      | some k =>
        simp only [hp,Option.bind_some] at hx ⊢
        exact ih hx

theorem scan_delimiter {h h' : Held} {c : Char} {xs : List Char} {a d b : List Token}
    (ha : h.tokens = some a) (hd : delimiter c = some d) (hx : scan .nothing xs = some (b,h')) :
    scan h (c :: xs) = some (a ++ d ++ b,h') := by
  simp [scan,hd,ha,hx]

theorem scan_literal {text : String} {cs : List Char} {r : Option (List Token × Held)}
    (h : text = String.ofList cs) (hs : scan .nothing cs = r) : scan .nothing text.toList = r := by
  rw [h,String.toList_ofList]
  exact hs

theorem tokens_of_scan {query : String} {ts : List Token} (h : scan .nothing query.toList = some (ts,.nothing)) :
    tokens query = some ts := by
  simp [tokens,h,Held.tokens]

theorem delimiter_digit {c : Char} (h : c.isDigit = true) : delimiter c = none := by
  have hne : ∀ d : Char, d.isDigit = false → c ≠ d := by
    rintro d hd rfl
    exact absurd h (by simp [hd])
  have hspace : c.isWhitespace = false := by
    simp [Char.isWhitespace,hne ' ' rfl,hne '\t' rfl,hne '\r' rfl,hne '\n' rfl]
  simp [delimiter,hne '(' rfl,hne ')' rfl,hne ',' rfl,hspace]

theorem scan_digits (n : Nat) {ds : List Char} (h : ∀ c ∈ ds, c.isDigit = true) :
    scan (.param n) ds = some ([],.param (Nat.ofDigitChars 10 ds n)) := by
  induction ds generalizing n with
  | nil => rfl
  | cons c ds ih =>
    have hc := h c List.mem_cons_self
    rw [scan,delimiter_digit hc]
    simp only [Held.push,hc,if_true,Option.bind_some]
    exact ih _ fun c hc => h c (List.mem_cons_of_mem _ hc)

theorem scan_placeholder (n : Nat) :
    scan .nothing ('$' :: Nat.toDigits 10 n) = some ([],.param n) := by
  have hdigits : ∀ c ∈ Nat.toDigits 10 n, c.isDigit = true := fun c hc =>
    Nat.isDigit_of_mem_toDigits (by decide) (by decide) hc
  have hn : Nat.ofDigitChars 10 (Nat.toDigits 10 n) 0 = n := Nat.ofDigitChars_ten_toDigits
  cases hds : Nat.toDigits 10 n with
  | nil => exact absurd hds Nat.toDigits_ne_nil
  | cons c ds =>
    rw [hds] at hdigits hn
    have hc := hdigits c List.mem_cons_self
    have hrest := scan_digits (c.toNat - '0'.toNat) fun d hd => hdigits d (List.mem_cons_of_mem _ hd)
    have hstart : scan .nothing ('$' :: c :: ds) = scan (.param (c.toNat - '0'.toNat)) ds := by
      simp [scan,delimiter_digit hc,Held.push,hc,show delimiter '$' = none from rfl]
    rw [hstart,hrest]
    simp only [Nat.ofDigitChars,List.foldl_cons,Nat.mul_zero,Nat.zero_add] at hn ⊢
    rw [hn]

theorem scan_list {row : List Nat} (h : row ≠ []) :
    scan .nothing (listText row) = some (listTokens .param row,.nothing) := by
  induction row with
  | nil => exact absurd rfl h
  | cons n row ih =>
    cases row with
    | nil => exact scan_append (scan_placeholder n) (scan_delimiter (a := [.param n]) (d := [.right]) rfl rfl rfl)
    | cons m row =>
      exact scan_append (scan_placeholder n)
        (scan_delimiter (a := [.param n]) (d := [.comma]) rfl rfl (ih (List.cons_ne_nil m row)))

theorem scan_tuple {row : List Nat} (h : row ≠ []) :
    scan .nothing (tupleText row) = some (tupleTokens row,.nothing) :=
  scan_delimiter (h := .nothing) (a := []) (d := [.left]) rfl rfl (scan_list h)

end Scan

section Parse

theorem items_listTokens {α : Type} {f : Token → Option α} {g : α → Token} (hf : ∀ a, f (g a) = some a)
    {as : List α} (h : as ≠ []) (rest : List Token) :
    items f (listTokens g as ++ rest) = some (as,rest) := by
  induction as with
  | nil => exact absurd rfl h
  | cons a as ih =>
    cases as with
    | nil => simp [listTokens,items,hf]
    | cons b as => simp [listTokens,items,hf,ih (List.cons_ne_nil _ _)]

theorem tuples_rowTokens {row : List Nat} {rows : List (List Nat)} (h : ∀ r ∈ row :: rows, r ≠ [])
    {fuel : Nat} (hf : rows.length < fuel) : tuples fuel (rowTokens (row :: rows)) = some (row :: rows) := by
  induction rows generalizing row fuel with
  | nil =>
    obtain ⟨fuel,rfl⟩ := Nat.exists_eq_add_one_of_ne_zero (Nat.pos_iff_ne_zero.mp hf)
    have hitems := items_listTokens (f := Token.param?) (g := .param) (fun _ => rfl)
      (h row List.mem_cons_self) []
    rw [List.append_nil] at hitems
    simp [rowTokens,tupleTokens,tuples,hitems]
  | cons next rows ih =>
    obtain ⟨fuel,rfl⟩ := Nat.exists_eq_add_one_of_ne_zero (Nat.ne_zero_of_lt hf)
    have hitems := items_listTokens (f := Token.param?) (g := .param) (fun _ => rfl)
      (h row List.mem_cons_self) (.comma :: rowTokens (next :: rows))
    have hrest := ih (fun r hr => h r (List.mem_cons_of_mem _ hr)) (Nat.lt_of_succ_lt_succ hf)
    simp only [rowTokens,tupleTokens,List.flatMap_cons,List.cons_append] at hitems hrest ⊢
    simp [tuples,hitems,hrest]

theorem length_le_flatMap (rows : List (List Nat)) :
    rows.length ≤ (rows.flatMap (fun row => Token.comma :: tupleTokens row)).length := by
  induction rows with
  | nil => exact Nat.le_refl 0
  | cons row rows ih =>
    rw [List.flatMap_cons,List.length_append,List.length_cons,List.length_cons]
    omega

theorem parseInsert_rows {table : String} {columns : List String} {row : List Nat} {rows : List (List Nat)}
    (hc : columns ≠ []) (h : ∀ r ∈ row :: rows, r ≠ []) :
    parseInsert (headerTokens table columns ++ rowTokens (row :: rows)) =
      some ⟨table,columns,row :: rows⟩ := by
  have hitems := items_listTokens (f := Token.name?) (g := .word) (fun _ => rfl) hc
    (.word "VALUES" :: rowTokens (row :: rows))
  have hlen : rows.length < (rowTokens (row :: rows)).length + 1 := by
    rw [rowTokens,List.length_append]
    exact Nat.lt_succ_of_le (Nat.le_trans (length_le_flatMap rows) (Nat.le_add_left _ _))
  simp [headerTokens,parseInsert,hitems,tuples_rowTokens h hlen]

theorem filterMap_listTokens {α β : Type} {f : Token → Option β} {g : α → Token}
    (hcomma : f .comma = none) (hright : f .right = none) (as : List α) :
    (listTokens g as).filterMap f = as.filterMap (fun a => f (g a)) := by
  induction as with
  | nil => simp [listTokens,hright]
  | cons a as ih =>
    cases as with
    | nil => cases hga : f (g a) <;> simp [listTokens,hright,hga]
    | cons b as => cases hga : f (g a) <;> simp [listTokens,hcomma,hga,ih]

theorem filterMap_tupleTokens (row : List Nat) : (tupleTokens row).filterMap Token.param? = row := by
  rw [tupleTokens,List.filterMap_cons_none rfl,filterMap_listTokens rfl rfl]
  exact List.filterMap_some

theorem filterMap_headerTokens (table : String) (columns : List String) :
    (headerTokens table columns).filterMap Token.param? = [] := by
  rw [headerTokens,List.filterMap_cons_none rfl,List.filterMap_cons_none rfl,List.filterMap_cons_none rfl,
    List.filterMap_cons_none rfl,List.filterMap_append,filterMap_listTokens rfl rfl]
  simp [Token.param?]

theorem filterMap_rowTokens (rows : List (List Nat)) :
    (rowTokens rows).filterMap Token.param? = rows.flatten := by
  cases rows with
  | nil => rfl
  | cons row rows =>
    rw [rowTokens,List.filterMap_append,filterMap_tupleTokens,List.flatten_cons]
    congr 1
    induction rows with
    | nil => rfl
    | cons next rows ih =>
      rw [List.flatMap_cons,List.filterMap_append,ih,List.filterMap_cons_none rfl,filterMap_tupleTokens,
        List.flatten_cons]

end Parse

def numbered (width : Nat) : Nat → Nat → List (List Nat)
  | _, 0 => []
  | i, k+1 => List.range' (i*width+1) width :: numbered width (i+1) k

section Numbered

variable {β : Type}

theorem flatten_numbered (width i k : Nat) :
    (numbered width i k).flatten = List.range' (i*width+1) (width*k) := by
  induction k generalizing i with
  | zero => rfl
  | succ k ih =>
    rw [numbered,List.flatten_cons,ih,Nat.mul_succ,Nat.add_comm (width*k) width,
      ← List.range'_append_1]
    congr 2
    rw [Nat.succ_mul]
    omega

theorem mem_numbered_ne_nil {width i k : Nat} (hw : width ≠ 0) :
    ∀ row ∈ numbered width i k, row ≠ [] := by
  induction k generalizing i with
  | zero => exact fun _ h => nomatch h
  | succ k ih =>
    intro row hr
    rcases List.mem_cons.mp hr with rfl | hr
    · rwa [Ne,List.range'_eq_nil_iff]
    · exact ih row hr

theorem foldr_max_range' (i n : Nat) : (List.range' i (n+1)).foldr max 0 = i+n := by
  induction n generalizing i with
  | zero => simp
  | succ n ih =>
    rw [List.range'_succ,List.foldr_cons,ih]
    omega

theorem mapM_argument (pre vs post : List β) :
    (List.range' (pre.length+1) vs.length).mapM (argument (pre ++ vs ++ post)) = some vs := by
  induction vs generalizing pre with
  | nil => rfl
  | cons v vs ih =>
    have hhead : argument (pre ++ v :: vs ++ post) (pre.length+1) = some v := by
      simp [argument]
    have hrest := ih (pre ++ [v])
    rw [List.length_append,List.length_singleton,List.append_assoc pre [v]] at hrest
    rw [List.length_cons,List.range'_succ,List.mapM_cons,hhead]
    simp only [List.singleton_append] at hrest
    rw [hrest]
    rfl

theorem mapM_bindRow (ins : Insert) (pre : List β) {vss : List (List β)} {i : Nat}
    (hpre : pre.length = i*ins.columns.length) (hv : ∀ vs ∈ vss, vs.length = ins.columns.length) :
    (numbered ins.columns.length i vss.length).mapM (ins.bindRow (pre ++ vss.flatten)) =
      some (vss.map ins.columns.zip) := by
  induction vss generalizing pre i with
  | nil => rfl
  | cons vs vss ih =>
    have hlen := hv vs List.mem_cons_self
    have hrow : ins.bindRow (pre ++ (vs :: vss).flatten) (List.range' (i*ins.columns.length+1) ins.columns.length) =
        some (ins.columns.zip vs) := by
      have harg := mapM_argument pre vs vss.flatten
      rw [hpre,hlen,List.append_assoc] at harg
      rw [Insert.bindRow,if_pos List.length_range',List.flatten_cons,harg]
      rfl
    have hrest := ih (pre ++ vs) (i := i+1)
      (by rw [List.length_append,hpre,hlen,Nat.succ_mul]) fun vs hvs => hv vs (List.mem_cons_of_mem _ hvs)
    rw [List.append_assoc] at hrest
    rw [List.length_cons,numbered,List.mapM_cons,hrow]
    rw [List.flatten_cons,hrest]
    rfl

structure Call.Numbers (call : Call β) (table : String) (columns : List String) (vss : List (List β)) :
    Prop where
  query : tokens call.query =
    some (headerTokens table columns ++ rowTokens (numbered columns.length 0 vss.length))
  args : call.args = vss.flatten
  some_columns : columns ≠ []
  some_rows : vss ≠ []
  width : ∀ vs ∈ vss, vs.length = columns.length

namespace Call.Numbers

variable {call : Call β} {table : String} {columns : List String} {vss : List (List β)}

theorem placeholders_eq (h : call.Numbers table columns vss) :
    placeholders call.query = some (List.range' 1 (columns.length*vss.length)) := by
  rw [placeholders,h.query,Option.map_some,List.filterMap_append,filterMap_headerTokens,filterMap_rowTokens,
    flatten_numbered,List.nil_append,Nat.zero_mul]

theorem length_args (h : call.Numbers table columns vss) :
    call.args.length = columns.length*vss.length := by
  have hwidths : vss.map List.length = List.replicate vss.length columns.length := by
    rw [← List.map_const']
    exact List.map_congr_left h.width
  rw [h.args,List.length_flatten,hwidths,List.sum_replicate_nat,Nat.mul_comm]

theorem parse (h : call.Numbers table columns vss) :
    (tokens call.query).bind parseInsert =
      some ⟨table,columns,numbered columns.length 0 vss.length⟩ := by
  rw [h.query,Option.bind_some]
  obtain ⟨vs,vss,rfl⟩ := List.exists_cons_of_ne_nil h.some_rows
  have hrows : ∀ row ∈ numbered columns.length 0 (vss.length+1), row ≠ [] :=
    mem_numbered_ne_nil (Nat.ne_of_gt (List.length_pos_of_ne_nil h.some_columns))
  exact parseInsert_rows h.some_columns hrows

theorem parameters (h : call.Numbers table columns vss) :
    (⟨table,columns,numbered columns.length 0 vss.length⟩ : Insert).parameters =
      columns.length*vss.length := by
  have hpos := Nat.mul_pos (List.length_pos_of_ne_nil h.some_columns) (List.length_pos_of_ne_nil h.some_rows)
  obtain ⟨n,hn⟩ := Nat.exists_eq_add_one_of_ne_zero (Nat.ne_of_gt hpos)
  rw [Insert.parameters,flatten_numbered,hn,foldr_max_range',Nat.zero_mul,Nat.zero_add,Nat.add_comm]

theorem exec_eq {ρ ε : Type} (h : call.Numbers table columns vss)
    (hle : columns.length*vss.length ≤ 65535) (accept : String → List (String × β) → Except ε ρ)
    (db : String → List ρ) :
    exec accept call db = insertRows accept table (vss.map columns.zip) db := by
  have hbind := mapM_bindRow ⟨table,columns,numbered columns.length 0 vss.length⟩ [] (i := 0)
    (Nat.zero_mul _).symm h.width
  rw [List.nil_append,← h.args] at hbind
  have hok : ¬ (call.args.length > 65535 ∨
      (⟨table,columns,numbered columns.length 0 vss.length⟩ : Insert).parameters ≠ call.args.length) := by
    rw [h.parameters,h.length_args]
    omega
  simp only [exec,h.parse,if_neg hok,hbind]

theorem exec_many {ρ ε : Type} (h : call.Numbers table columns vss)
    (hlt : 65535 < columns.length*vss.length) (accept : String → List (String × β) → Except ε ρ)
    (db : String → List ρ) : exec accept call db = .error .parameters := by
  have hmany : call.args.length > 65535 := by rwa [h.length_args]
  simp only [exec,h.parse,if_pos (Or.inl hmany)]

end Call.Numbers

end Numbered

end CostConsumer.Foundation.Sql
