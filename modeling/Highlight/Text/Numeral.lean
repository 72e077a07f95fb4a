import Highlight.Text.Digits

/-! Numbers as they are written in text, where nothing but the number may stand. -/

namespace Highlight.Numeral

def natural? (base : Nat) (cs : List Char) : Option Nat :=
  if cs.isEmpty then none
  else
    (cs.mapM fun c => (Digits.hexValue? c).filter (· < base)).map fun ds => Digits.ofDigits base ds

def unplus : List Char → List Char
  | '+' :: cs => cs
  | cs => cs

def unsigned? (base : Nat) (cs : List Char) : Option Int :=
  ((natural? base (unplus cs)).filter (· < Digits.wordEnd)).map fun n => (n : Int)

def unprefixed : List Char → List Char
  | '0' :: 'x' :: cs => unprefixed cs
  | cs => cs

def integer? (s : List Char) : Option Int :=
  match s with
  | '0' :: 'x' :: _ => unsigned? 16 (unprefixed s)
  | '-' :: cs => ((natural? 10 cs).filter (· ≤ Digits.signedEnd)).map fun n => -(n : Int)
  | _ => unsigned? 10 s

def isDigit (c : Char) : Bool := c.isDigit

def exponent? : List Char → Option Int
  | [] => some 0
  | e :: cs =>
    if e = 'e' ∨ e = 'E' then
      match cs with
      | '-' :: ds => (natural? 10 ds).map fun n => -(n : Int)
      | ds => (natural? 10 (unplus ds)).map fun n => (n : Int)
    else none

def scaled (mantissa count : Nat) (power : Int) : Float :=
  if mantissa = 0 ∨ count + power < -330 then 0.0
  else if 330 < count + power then 1.0 / 0.0
  else Float.ofScientific mantissa (power < 0) power.natAbs

def magnitude? (cs : List Char) : Option Float :=
  let lower := cs.map Char.toLower
  if lower = "inf".toList ∨ lower = "infinity".toList then some (1.0 / 0.0)
  else if lower = "nan".toList then some (0.0 / 0.0)
  else
    let whole := cs.takeWhile isDigit
    let (fraction, rest) := match cs.dropWhile isDigit with
      | '.' :: ds => (ds.takeWhile isDigit, ds.dropWhile isDigit)
      | ds => ([], ds)
    let digits := whole ++ fraction
    match natural? 10 digits, exponent? rest with
    | some n, some e => some (scaled n digits.length (e - fraction.length))
    | _, _ => none

def real? : List Char → Option Float
  | '-' :: cs => (magnitude? cs).map fun x => -x
  | cs => magnitude? (unplus cs)

end Highlight.Numeral
