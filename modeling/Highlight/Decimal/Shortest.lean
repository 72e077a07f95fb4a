/-! The shortest decimal that reads back as a given binary64 number. -/

namespace Highlight.Decimal

structure Scientific where
  digits : Nat
  power : Int
  deriving Repr

def digitCount (n : Nat) : Nat := (Nat.toDigits 10 n).length

structure Interval where
  low : Nat
  value : Nat
  high : Nat
  denominator : Nat
  closed : Bool

def Interval.around (mantissa : Nat) (exponent : Int) : Interval :=
  -- Below a power of two numbers are half as far from each other.
  let below := if mantissa = 0x10000000000000 ∧ exponent > -1074 then 1 else 2
  let scale := Nat.pow 2 exponent.toNat
  ⟨(4 * mantissa - below) * scale, 4 * mantissa * scale, (4 * mantissa + 2) * scale,
    Nat.pow 2 (-exponent).toNat * 4, mantissa % 2 = 0⟩

def Interval.contains (i : Interval) (n : Nat) : Bool :=
  if i.closed then i.low ≤ n && n ≤ i.high else i.low < n && n < i.high

def Interval.gridPoint? (i : Interval) (power : Int) : Option Scientific :=
  let up := Nat.pow 10 (-power).toNat
  let unit := Nat.pow 10 power.toNat * i.denominator
  let scaled : Interval := ⟨i.low * up, i.value * up, i.high * up, unit, i.closed⟩
  let n := scaled.value / unit
  let lower := scaled.contains (n * unit)
  let upper := scaled.contains ((n + 1) * unit)
  let rest := scaled.value - n * unit
  if lower ∧ (¬ upper ∨ 2 * rest < unit ∨ (2 * rest = unit ∧ n % 2 = 0)) then some ⟨n, power⟩
  else if upper then some ⟨n + 1, power⟩
  else none

def leadingPower (num den : Nat) : Int :=
  if den ≤ num then digitCount (num / den) - 1
  else
    let e := digitCount (den / num)
    if den ≤ num * Nat.pow 10 (e - 1) then 1 - e else -e

def shortest (mantissa : Nat) (exponent : Int) : Scientific :=
  let i := Interval.around mantissa exponent
  let lead := leadingPower i.value i.denominator
  ((List.range 19).findSome? fun n => i.gridPoint? (lead + 1 - (n : Nat))).getD ⟨mantissa, 0⟩

def ofBits (bits : UInt64) : Nat × Int :=
  let fraction := (bits &&& 0xFFFFFFFFFFFFF).toNat
  let power := ((bits >>> 52) &&& 0x7FF).toNat
  if power = 0 then (fraction, -1074) else (fraction + 0x10000000000000, (power : Int) - 1075)

end Highlight.Decimal
