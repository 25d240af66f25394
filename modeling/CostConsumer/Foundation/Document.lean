import Mathlib.Algebra.Ring.Int.Defs
import Mathlib.Data.Rat.Defs
set_option autoImplicit false

/-!
JSON values, and how `encoding/json` decodes an object into a struct and encodes
one. A key selects a field whatever its case, of several values for a field the last
one counts, null leaves a field as it is, and a value of another type is an error
that does not stop the decoding.
-/

namespace CostConsumer.Foundation

inductive Document where
  | null : Document
  | bool (b : Bool) : Document
  | number (literal : String) : Document
  | text (s : String) : Document
  | array (vs : List Document) : Document
  | object (members : List (String × Document)) : Document

/-- The members of an object in the order of the text. -/
abbrev Members := List (String × Document)

/-- Names of fields have ASCII letters, to which only two other characters fold. -/
def foldChar (c : Char) : Char :=
  if c.val = 0x17f then 'S' else if c.val = 0x212a then 'K' else c.toUpper

def sameKey (name key : String) : Bool := key.toList.map foldChar = name.toList.map foldChar

namespace Members

def values (ms : Members) (name : String) : List Document :=
  (ms.filter (fun m => sameKey name m.1)).map (·.2)

def text (ms : Members) (name : String) : String :=
  (ms.values name).foldl (fun s v => match v with | .text s' => s' | _ => s) ""

end Members

def parseNat : List Char → Option Nat
  | [] => none
  | cs => cs.foldlM (fun n c => if c.isDigit then some (10*n + (c.toNat - '0'.toNat)) else none) 0

def parseInt (literal : String) : Option Int :=
  match literal.toList with
  | '-' :: cs => (parseNat cs).map fun n => -n
  | cs => (parseNat cs).map Int.ofNat

/-!
The JSON texts that PostgreSQL takes for a `jsonb` value. It decodes the escapes of strings and
reads numbers into its `numeric` type, so it refuses some of what is JSON.
-/

namespace Jsonb

/-- At most 131072 digits before the decimal point and 16383 after it; the exponent is limited
by itself. -/
def takesNumber (literal : List Char) : Bool :=
  let mantissa := literal.takeWhile fun c => c ≠ 'e' && c ≠ 'E'
  let exponent := (parseInt (String.ofList ((literal.drop (mantissa.length+1)).filter (· ≠ '+')))).getD 0
  let whole := (mantissa.takeWhile (· ≠ '.')).filter Char.isDigit
  let fraction := (mantissa.dropWhile (· ≠ '.')).filter Char.isDigit
  let zeros := ((whole ++ fraction).takeWhile (· = '0')).length
  exponent.natAbs < 1073741823 && (fraction.length : Int) - exponent ≤ 16383 &&
    (zeros = whole.length + fraction.length || (whole.length : Int) - zeros + exponent ≤ 131072)

/-- Where a scan of the text is: outside of strings, with the number read so far, in a string,
after a backslash, or among the digits of a code unit. `high` says that a high surrogate came
just before. -/
inductive Scan where
  | outside (literal : List Char) : Scan
  | inside (high : Bool) : Scan
  | escape (high : Bool) : Scan
  | unit (high : Bool) (digits : List Char) : Scan

def hexDigit (c : Char) : Nat :=
  if c.isDigit then c.toNat - '0'.toNat else c.toUpper.toNat - 'A'.toNat + 10

/-- A code unit must not be zero, and surrogates come in pairs. -/
def Scan.afterUnit (high : Bool) (code : Nat) : Option Scan :=
  if high then if 0xdc00 ≤ code && code < 0xe000 then some (inside false) else none
  else if code = 0 || (0xdc00 ≤ code && code < 0xe000) then none
  else some (inside (0xd800 ≤ code && code < 0xdc00))

def Scan.next : Scan → Char → Option Scan
  | outside literal, c =>
    if c.isDigit || c = '-' || (literal ≠ [] && c ∈ ['.','e','E','+']) then some (outside (literal ++ [c]))
    else if takesNumber literal then some (if c = '"' then inside false else outside [])
    else none
  | inside high, c =>
    if c = '\\' then some (escape high)
    else if high then none
    else some (if c = '"' then outside [] else inside false)
  | escape high, c => if c = 'u' then some (unit high []) else if high then none else some (inside false)
  | unit high digits, c =>
    if digits.length < 3 then some (unit high (digits ++ [c]))
    else Scan.afterUnit high ((digits ++ [c]).foldl (fun n c => 16*n + hexDigit c) 0)

/-- `text` is the text of a JSON value. -/
def takes (text : String) : Bool :=
  match text.toList.foldlM Scan.next (.outside []) with
  | some (.outside literal) => takesNumber literal
  | _ => false

end Jsonb

namespace Document

def integer? (bits : Nat) : Document → Option Int
  | number literal => (parseInt literal).filter fun n => -2^(bits-1) ≤ n && n < 2^(bits-1)
  | _ => none

def number? (parseFloat : String → Option Rat) : Document → Option Rat
  | number literal => parseFloat literal
  | _ => none

/-- What the fields of each type accept; a pointer accepts what its target does. -/
def isText : Document → Bool
  | null | text _ => true
  | _ => false

def isInteger (bits : Nat) : Document → Bool
  | null => true
  | v => (v.integer? bits).isSome

def isNumber (parseFloat : String → Option Rat) : Document → Bool
  | null => true
  | v => (v.number? parseFloat).isSome

def isTime (parseTime : String → Option Int) : Document → Bool
  | null => true
  | text s => (parseTime s).isSome
  | _ => false

def isAny : Document → Bool := fun _ => true

def isNull : Document → Bool
  | null => true
  | _ => false

end Document

namespace Members

def integer (ms : Members) (bits : Nat) (name : String) : Int :=
  (ms.values name).foldl (fun n v => (v.integer? bits).getD n) 0

def number (ms : Members) (parseFloat : String → Option Rat) (name : String) : Rat :=
  (ms.values name).foldl (fun q v => (v.number? parseFloat).getD q) 0

/-- A pointer: null clears it, and any other value allocates its target first. -/
def text? (ms : Members) (name : String) : Option String :=
  (ms.values name).foldl (fun s v => match v with
    | .null => none
    | .text s' => some s'
    | _ => some (s.getD "")) none

def number? (ms : Members) (parseFloat : String → Option Rat) (name : String) : Option Rat :=
  (ms.values name).foldl (fun q v => match v with
    | .null => none
    | v => some ((v.number? parseFloat).getD (q.getD 0))) none

def time (ms : Members) (parseTime : String → Option Int) (name : String) : Int :=
  (ms.values name).foldl (fun t v => match v with
    | .text s => (parseTime s).getD t
    | _ => t) 0

def raw (ms : Members) (render : Document → String) (name : String) : String :=
  (ms.values name).foldl (fun _ v => render v) ""

end Members

/-- There is a value for the field that is not null. -/
def Members.has (ms : Members) (name : String) : Bool := (ms.values name).any fun v => !v.isNull

section Encoding

/-- `omitempty`, for a pointer, a string, an integer and a map or slice. -/
def omitNone (name : String) (v : Option Document) : Members := (v.map fun v => (name,v)).toList

def omitText (name s : String) : Members := if s = "" then [] else [(name,.text s)]

def omitZero (name : String) (n : Int) : Members := if n = 0 then [] else [(name,.number (toString n))]

def omitFalse (name : String) (b : Bool) : Members := if b then [(name,.bool b)] else []

def omitEmpty {α : Type} (name : String) (encode : List α → Document) : List α → Members
  | [] => []
  | as => [(name,encode as)]

end Encoding

theorem forall_omitNone {P : String → Prop} {name : String} (h : P name) (v : Option Document) :
    ∀ m ∈ omitNone name v, P m.1 := by
  intro m hm
  obtain ⟨v',-,rfl⟩ := Option.map_eq_some_iff.mp (Option.mem_toList.mp hm)
  exact h

theorem Members.values_eq_nil {ms : Members} {name : String}
    (h : ∀ m ∈ ms, sameKey name m.1 = false) : ms.values name = [] := by
  have hnone : ms.filter (fun m => sameKey name m.1) = [] := by
    rw [List.filter_eq_nil_iff]
    intro m hm
    simp [h m hm]
  rw [Members.values,hnone,List.map_nil]

section Absent
variable {ms : Members} {name : String}

theorem foldl_of_null {α : Type} {f : α → Document → α} {a : α} (hf : f a .null = a) {vs : List Document}
    (h : vs.any (fun v => !v.isNull) = false) : vs.foldl f a = a := by
  induction vs with
  | nil => rfl
  | cons v vs ih =>
    rw [List.any_cons,Bool.or_eq_false_iff] at h
    cases v with
    | null => rw [List.foldl_cons,hf,ih h.2]
    | _ => cases h.1

theorem Members.text_of_absent (h : ms.has name = false) : ms.text name = "" := foldl_of_null rfl h

theorem Members.text?_of_absent (h : ms.has name = false) : ms.text? name = none := foldl_of_null rfl h

theorem Members.integer_of_absent {bits : Nat} (h : ms.has name = false) : ms.integer bits name = 0 :=
  foldl_of_null rfl h

end Absent

/-- The fields of a struct with what they accept. -/
abbrev Schema := List (String × (Document → Bool))

def conforms (schema : Schema) (ms : Members) : Bool :=
  schema.all fun field => (ms.values field.1).all field.2

namespace Document

variable {α β : Type}

def members? : Document → Option Members
  | null => some []
  | object ms => some ms
  | _ => none

/-- `Unmarshal` into a struct; no value is an error. -/
def decode (schema : Schema) (build : Members → α) (v : Document) : Option α :=
  v.members?.bind fun ms => if conforms schema ms then some (build ms) else none

theorem decode_eq_some {schema : Schema} {build : Members → α} {v : Document} {a : α} :
    v.decode schema build = some a ↔ ∃ ms, v.members? = some ms ∧ conforms schema ms = true ∧
      build ms = a := by
  simp only [decode,Option.bind_eq_some_iff,Option.ite_none_right_eq_some,Option.some.injEq]

theorem decode_both {schema schema' : Schema} {build : Members → α} {build' : Members → β}
    {v : Document} {a : α} {b : β} (ha : v.decode schema build = some a)
    (hb : v.decode schema' build' = some b) : ∃ ms, a = build ms ∧ b = build' ms := by
  obtain ⟨ms,hms,-,rfl⟩ := decode_eq_some.mp ha
  obtain ⟨ms',hms',-,rfl⟩ := decode_eq_some.mp hb
  rw [hms] at hms'
  cases hms'
  exact ⟨ms,rfl,rfl⟩

end Document

end CostConsumer.Foundation
