import Highlight.Json.Parsed

/-! Reading numbers. An integer is exact while it fits 64 bits; every other number is rounded to
binary64, after its digits beyond 64 bits are dropped. -/

namespace Highlight.Json

inductive Number
  | natural (n : Nat)
  | negative (n : Int)
  | real (x : Float)

namespace Number

def found : Number → Found
  | .natural n => .integer n
  | .negative n => .integer n
  | .real x => .real x

/-- `significand · 10 ^ power`. The significand is full when its next digit did not fit. -/
structure Scaled where
  significand : Nat
  power : Int
  full : Bool

def isDigit (b : UInt8) : Bool := 0x30 ≤ b && b ≤ 0x39

def digitValue (b : UInt8) : Nat := b.toNat - 0x30

def Scaled.push? (m : Scaled) (digit : Nat) : Option Nat :=
  let n := m.significand * 10 + digit
  if !m.full && n < Digits.wordEnd then some n else none

def Scaled.pushWhole (m : Scaled) (b : UInt8) : Scaled :=
  match m.push? (digitValue b) with
  | some n => { m with significand := n }
  | none => { m with power := m.power + 1, full := true }

def Scaled.pushFraction (m : Scaled) (b : UInt8) : Scaled :=
  match m.push? (digitValue b) with
  | some n => { m with significand := n, power := m.power - 1 }
  | none => { m with full := true }

def tenTo (n : Nat) : Float := Float.ofScientific 1 false n

def scale? (x : Float) (power : Int) : Option Float :=
  if power > 308 then if x == 0 then some x else none
  else if 0 ≤ power then
    let y := x * tenTo power.toNat
    if y.isInf then none else some y
  else if -308 ≤ power then some (x / tenTo (-power).toNat)
  else if x == 0 then some x
  else scale? (x / tenTo 308) (power + 308)
termination_by (-power).toNat

def Scaled.real (m : Scaled) (negative : Bool) (rest : Bytes) : Except Fault Number :=
  match scale? (Float.ofNat m.significand) m.power with
  | some x => .ok (.real (if negative then -x else x))
  | none => .error (.before .numberOutOfRange rest)

def Scaled.integer (m : Scaled) (negative : Bool) (rest : Bytes) : Except Fault Number :=
  if m.full then m.real negative rest
  else if !negative then .ok (.natural m.significand)
  else if m.significand = 0 ∨ Digits.signedEnd < m.significand then m.real true rest
  else .ok (.negative (-m.significand))

theorem length_dropWhile (p : UInt8 → Bool) (s : Bytes) : (s.dropWhile p).length ≤ s.length :=
  (List.dropWhile_sublist p).length_le

def exponentLimit : Nat := 0x7FFFFFFF

def exponentDigits (n : Nat) : Bytes → Except Bytes Nat
  | [] => .ok n
  | b :: rest =>
    if isDigit b then
      let m := n * 10 + digitValue b
      -- The digit that does not fit is the last one that is read.
      if exponentLimit < m then .error rest else exponentDigits m rest
    else .ok n

def exponent (m : Scaled) (negative down : Bool) : Reader Number
  | [] => .error (.before .endInValue [])
  | b :: rest =>
    let after := rest.dropWhile isDigit
    let finish (n : Except Fault Number) : Result Number (b :: rest) :=
      n.map fun n => ⟨n, after, Nat.lt_succ_of_le (length_dropWhile isDigit rest)⟩
    if !isDigit b then .error (.before .invalidNumber rest)
    else
      match exponentDigits (digitValue b) rest with
      | .ok e =>
        finish ({ m with power := if down then m.power - e else m.power + e }.real negative after)
      | .error place =>
        if m.significand ≠ 0 ∧ !down then .error (.before .numberOutOfRange place)
        else finish (.ok (.real (if negative then -0.0 else 0.0)))

def signedExponent (m : Scaled) (negative : Bool) : Reader Number
  | [] => exponent m negative false []
  | b :: rest =>
    if b = 0x2b then (exponent m negative false rest).widen (length_le_cons b rest)
    else if b = 0x2d then (exponent m negative true rest).widen (length_le_cons b rest)
    else exponent m negative false (b :: rest)

def isExponentMark (b : UInt8) : Bool := b == 0x65 || b == 0x45

def fraction (m : Scaled) (negative : Bool) : Reader Number
  | [] => .error (.inFirst .endInValue [])
  | b :: rest =>
    if !isDigit b then .error (.inFirst .invalidNumber (b :: rest))
    else
      let m := (b :: rest.takeWhile isDigit).foldl Scaled.pushFraction { m with full := false }
      have h := length_dropWhile isDigit rest
      match hs : rest.dropWhile isDigit with
      | [] => (m.real negative []).map fun n => ⟨n, [], length_nil_lt_cons b rest⟩
      | e :: after =>
        have he : (e :: after).length ≤ rest.length := hs ▸ h
        if isExponentMark e then
          (signedExponent m negative after).widen (length_le_cons_of_lt b he)
        else (m.real negative (e :: after)).map fun n => ⟨n, e :: after, length_lt_cons_of_le b he⟩

def afterWhole (m : Scaled) (negative : Bool) (b : UInt8) (s : Bytes) : Result Number (b :: s) :=
  match s with
  | [] => (m.integer negative []).map fun n => ⟨n, [], length_lt_cons b []⟩
  | c :: rest =>
    if c = 0x2e then (fraction m negative rest).widen (length_le_cons_cons b c rest)
    else if isExponentMark c then (signedExponent m negative rest).widen (length_le_cons_cons b c rest)
    else (m.integer negative (c :: rest)).map fun n => ⟨n, c :: rest, length_lt_cons b _⟩

def unsigned (negative : Bool) : Reader Number
  | [] => .error (.before .endInValue [])
  | b :: rest =>
    if b = 0x30 then
      if rest.head?.any isDigit then .error (.inFirst .invalidNumber rest)
      else afterWhole ⟨0, 0, false⟩ negative b rest
    else if isDigit b then
      let m := (b :: rest.takeWhile isDigit).foldl Scaled.pushWhole ⟨0, 0, false⟩
      (afterWhole m negative b (rest.dropWhile isDigit)).widen
        (by simpa using length_dropWhile isDigit rest)
    else .error (.before .invalidNumber rest)

end Number

end Highlight.Json
