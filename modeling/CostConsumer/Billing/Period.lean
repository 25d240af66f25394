import CostConsumer.Foundation.GoTime
set_option autoImplicit false

namespace CostConsumer.Billing
open Foundation.GoTime

def isSpace (c : Char) : Bool :=
  c.toNat ∈ [9,10,11,12,13,32,0x85,0xA0,0x1680,0x2028,0x2029,0x202F,0x205F,0x3000] ||
    (0x2000 ≤ c.toNat && c.toNat ≤ 0x200A)

def trimSpace (s : List Char) : List Char :=
  ((s.dropWhile isSpace).reverse.dropWhile isSpace).reverse

/-- The unsigned part of `strconv.Atoi`: at least one digit and nothing else. -/
def digitsValue (s : List Char) : Option Nat :=
  if s ≠ [] ∧ s.all Char.isDigit then some (Nat.ofDigitChars 10 s 0) else none

def atoi (s : List Char) : Option Int := do
  let n ← match s with
    | '+' :: ds => (digitsValue ds).map Int.ofNat
    | '-' :: ds => (digitsValue ds).map (fun n => -(n : Int))
    | ds => (digitsValue ds).map Int.ofNat
  if -2^63 ≤ n ∧ n < 2^63 then some n else none

/-- A number followed by a one-letter unit, surrounding spaces allowed. -/
def parseDuration (unit : Char) (s : String) : Option Int :=
  let s := trimSpace s.toList
  if s.getLast? = some unit then atoi s.dropLast else none

def parseDayDuration (s : String) : Option Int := parseDuration 'd' s
def parseHourDuration (s : String) : Option Int := parseDuration 'h' s

/-- The errors of `ResolvePeriod`: a day duration outside 1-31, an hour duration
outside 1-24, or a period of no known form. -/
inductive PeriodError where
  | dayDuration : Int → PeriodError
  | hourDuration : Int → PeriodError
  | unsupported : String → PeriodError
  deriving DecidableEq, Repr

def resolvePeriod (period : String) (ref : Int) : Except PeriodError (Int × Int) :=
  if period = "monthly" ∨ period = "" then
    let start := date (year ref) (month ref) 1
    .ok (start,addDate start 0 1 0)
  else if period = "weekly" then
    let weekday := if weekday ref = 0 then 7 else weekday ref
    let start := date (year ref) (month ref) (day ref - (weekday - 1))
    .ok (start,addDate start 0 0 7)
  else if period = "daily" then
    let start := date (year ref) (month ref) (day ref)
    .ok (start,addDate start 0 0 1)
  else match parseDayDuration period with
  | some days =>
    if days ≤ 0 ∨ days > 31 then .error (.dayDuration days)
    else
      let monthStart := date (year ref) (month ref) 1
      let nextMonth := addDate monthStart 0 1 0
      let dayOfMonth := day ref - 1
      let slotStart := dayOfMonth/days*days
      let start := addDate monthStart 0 0 slotStart
      let stop := addDate monthStart 0 0 (slotStart+days)
      .ok (start,if stop > nextMonth then nextMonth else stop)
  | none =>
    match parseHourDuration period with
    | some hours =>
      if hours ≤ 0 ∨ hours > 24 then .error (.hourDuration hours)
      else
        let midnight := date (year ref) (month ref) (day ref)
        let slotStart := hour ref/hours*hours
        let start := midnight + slotStart*nanosPerHour
        let stop := midnight + (slotStart+hours)*nanosPerHour
        let nextMidnight := addDate midnight 0 0 1
        .ok (start,if stop > nextMidnight then nextMidnight else stop)
    | none => .error (.unsupported period)

/-- The label of the window that contains `ref`; a period that does not resolve
is labelled by its month. The weekly label prints the calendar year of the
Monday next to the ISO week number. -/
def periodLabel (period : String) (ref : Int) : String :=
  match resolvePeriod period ref with
  | .error _ => String.ofList (formatMonth ref)
  | .ok (start,stop) =>
    if period = "monthly" ∨ period = "" then String.ofList (formatMonth start)
    else if period = "weekly" then
      String.ofList (appendInt (year start) 4 ++ ['-','W'] ++ appendInt (isoWeek start) 2)
    else if period = "daily" then String.ofList (formatDate start)
    else if (parseDayDuration period).isSome then
      String.ofList (formatDate start ++ '/' :: formatDate (stop - nanosPerDay))
    else String.ofList (formatDate start ++ '/' :: (formatClock start ++ '-' :: formatClock stop))

end CostConsumer.Billing
