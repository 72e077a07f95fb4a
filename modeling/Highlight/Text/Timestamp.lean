import Highlight.Text.Numeral

/-! Points in time, read from and written as texts such as `2001-01-01T00:00:00Z`. -/

namespace Highlight

structure Timestamp where
  seconds : Int
  nanoseconds : Nat

namespace Timestamp

def isLeapYear (y : Int) : Bool := y % 4 == 0 && (y % 100 != 0 || y % 400 == 0)

def daysInMonth (year : Int) (month : Nat) : Nat :=
  match month with
  | 2 => if isLeapYear year then 29 else 28
  | 4 | 6 | 9 | 11 => 30
  | _ => 31

def daysOfDate (year : Int) (month day : Nat) : Int :=
  let y := if month ≤ 2 then year - 1 else year
  let era := y.fdiv 400
  let yearOfEra := y - era * 400
  let monthFromMarch := (month + 9) % 12
  let dayOfYear : Int := (153 * monthFromMarch + 2) / 5 + (day : Int) - 1
  era * 146097 + (yearOfEra * 365 + yearOfEra / 4 - yearOfEra / 100 + dayOfYear) - 719468

def dateOfDays (days : Int) : Int × Nat × Nat :=
  let z := days + 719468
  let era := z.fdiv 146097
  let dayOfEra := z - era * 146097
  let yearOfEra := (dayOfEra - dayOfEra / 1460 + dayOfEra / 36524 - dayOfEra / 146096) / 365
  let dayOfYear := dayOfEra - (365 * yearOfEra + yearOfEra / 4 - yearOfEra / 100)
  let monthFromMarch := (5 * dayOfYear + 2) / 153
  let day := dayOfYear - (153 * monthFromMarch + 2) / 5 + 1
  let month := if monthFromMarch < 10 then monthFromMarch + 3 else monthFromMarch - 9
  let year := yearOfEra + era * 400
  (if month ≤ 2 then year + 1 else year, month.toNat, day.toNat)

def padded (width n : Nat) : List Char :=
  let ds := Digits.decimal n
  List.replicate (width - ds.length) '0' ++ ds

def fractionText (nanoseconds : Nat) : List Char :=
  if nanoseconds = 0 then []
  else '.' :: ((padded 9 nanoseconds).reverse.dropWhile (· == '0')).reverse

def text (t : Timestamp) : String :=
  let days := t.seconds.fdiv 86400
  let second := (t.seconds - days * 86400).toNat
  let (year, month, day) := dateOfDays days
  String.ofList (padded 4 year.toNat ++ '-' :: (padded 2 month ++ '-' :: (padded 2 day ++
    'T' :: (padded 2 (second / 3600) ++ ':' :: (padded 2 (second / 60 % 60) ++ ':' ::
      (padded 2 (second % 60) ++ fractionText t.nanoseconds ++ ['Z']))))))

def number? (n : Nat) (cs : List Char) : Option (Nat × List Char) :=
  if cs.length < n then none
  else if (cs.take n).all Char.isDigit then (Numeral.natural? 10 (cs.take n)).map (·, cs.drop n)
  else none

def numberAfter? (c : Char) : List Char → Option (Nat × List Char)
  | d :: cs => if d = c then number? 2 cs else none
  | [] => none

def nanosecondsOf (digits : List Char) : Nat :=
  let ds := digits.take 9
  ((Numeral.natural? 10 ds).getD 0) * Nat.pow 10 (9 - ds.length)

def fraction? : List Char → Option (Nat × List Char)
  | '.' :: cs =>
    if (cs.takeWhile Char.isDigit).isEmpty then none
    else some (nanosecondsOf (cs.takeWhile Char.isDigit), cs.dropWhile Char.isDigit)
  | cs => some (0, cs)

def offset? : List Char → Option Int
  | [z] => if z = 'Z' ∨ z = 'z' then some 0 else none
  | sign :: cs => do
    let (hours, cs) ← number? 2 cs
    let (minutes, cs) ← numberAfter? ':' cs
    if hours ≤ 23 ∧ minutes ≤ 59 ∧ cs.isEmpty then
      let seconds : Int := hours * 3600 + minutes * 60
      if sign = '+' then some seconds else if sign = '-' then some (-seconds) else none
    else none
  | [] => none

def endsMonth (t : Timestamp) : Bool :=
  let days := t.seconds.fdiv 86400
  let (year, month, day) := dateOfDays days
  t.seconds - days * 86400 == 86399 && day == daysInMonth year month

def ofText? (s : List Char) : Option Timestamp := do
  let (year, s) ← number? 4 s
  let (month, s) ← numberAfter? '-' s
  let (day, s) ← numberAfter? '-' s
  let separator ← s.head?
  let (hour, s) ← number? 2 s.tail
  let (minute, s) ← numberAfter? ':' s
  let (second, s) ← numberAfter? ':' s
  let (nanoseconds, s) ← fraction? s
  let offset ← offset? s
  if separator.toNat < 0x80 ∧ 1 ≤ month ∧ month ≤ 12 ∧ 1 ≤ day ∧ day ≤ daysInMonth year month ∧
      hour ≤ 23 ∧ minute ≤ 59 ∧ second ≤ 60 then
    let start := daysOfDate year month day * 86400 + hour * 3600 + minute * 60 - offset
    if second = 60 then
      -- A leap second is the last nanosecond before it.
      let t : Timestamp := ⟨start + 59, 999999999⟩
      if t.endsMonth then some t else none
    else some ⟨start + second, nanoseconds⟩
  else none

def epoch : Int := 978307200

def ofFloat? (x : Float) : Option Timestamp :=
  if x.isNaN ∨ x.isInf ∨ 9223372036854775808.0 ≤ x.abs then none
  else
    let size := x.abs
    let whole := size.floor
    let nanoseconds := ((size - whole) * 1e9).toUInt64.toNat
    let seconds : Int := whole.toUInt64.toNat
    let t : Timestamp :=
      if x < 0 then
        if nanoseconds = 0 then ⟨epoch - seconds, 0⟩
        else ⟨epoch - seconds - 1, 1000000000 - nanoseconds⟩
      else ⟨epoch + seconds, nanoseconds⟩
    if -(Digits.signedEnd : Int) ≤ t.seconds ∧ t.seconds < Digits.signedEnd then some t else none

end Timestamp

end Highlight
