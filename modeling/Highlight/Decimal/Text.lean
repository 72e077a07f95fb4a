import Highlight.Decimal.Shortest
import Highlight.Text.Digits

/-! Decimal texts of binary64 numbers: with an exponent where the number is large or small, and
always in full. -/

namespace Highlight.Decimal

open Digits

def positional (digits : List Char) (point : Int) : List Char :=
  if point ≤ 0 then ['0', '.'] ++ List.replicate (-point).toNat '0' ++ digits
  else if digits.length ≤ point then
    digits ++ List.replicate (point.toNat - digits.length) '0' ++ ['.', '0']
  else digits.take point.toNat ++ '.' :: digits.drop point.toNat

def exponentText (exponent : Int) : List Char :=
  (if exponent < 0 then '-' else '+') ::
    (if exponent.natAbs < 10 then '0' :: decimal exponent.natAbs else decimal exponent.natAbs)

def withExponent (digits : List Char) (exponent : Int) : List Char :=
  match digits with
  | [] => []
  | [d] => d :: 'e' :: exponentText exponent
  | d :: ds => d :: '.' :: (ds ++ 'e' :: exponentText exponent)

/-- A style of writing numbers: from which place of the point on, to either side, it is positional. -/
structure NumberStyle where
  least : Option Int
  most : Option Int

def NumberStyle.compact : NumberStyle := ⟨some (-5), some 16⟩

def NumberStyle.full : NumberStyle := ⟨none, none⟩

def NumberStyle.isPositional (style : NumberStyle) (point : Int) : Bool :=
  style.least.all (· < point) && style.most.all (point ≤ ·)

def NumberStyle.text (style : NumberStyle) (x : Float) : String :=
  if x.isNaN then "NaN"
  else
    let sign := if x.toBits >>> 63 = 1 then ['-'] else []
    let magnitude :=
      if x.isInf then "inf".toList
      else
        let (mantissa, exponent) := ofBits x.toBits
        if mantissa = 0 then "0.0".toList
        else
          let s := shortest mantissa exponent
          let digits := decimal s.digits
          let point := s.power + digits.length
          if style.isPositional point then positional digits point
          else withExponent digits (point - 1)
    String.ofList (sign ++ magnitude)

end Highlight.Decimal
