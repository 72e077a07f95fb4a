import Highlight.Json.Parsed
import Highlight.Text.Digits

/-! Reading string literals. -/

namespace Highlight.Json

def quote : UInt8 := 0x22

def backslash : UInt8 := 0x5c

def hexByte? (b : UInt8) : Option Nat := Digits.hexValue? (Char.ofNat b.toNat)

def hexEscape : Reader Nat
  | a :: b :: c :: d :: rest =>
    match hexByte? a, hexByte? b, hexByte? c, hexByte? d with
    | some a', some b', some c', some d' =>
      .ok ⟨Digits.ofDigits 16 [a', b', c', d'], rest, length_lt_four a b c d rest⟩
    | _, _, _, _ => .error (.before .invalidEscape rest)
  | _ => .error (.before .endInString [])

def isLeadingSurrogate (n : Nat) : Bool := 0xD800 ≤ n && n ≤ 0xDBFF

def isTrailingSurrogate (n : Nat) : Bool := 0xDC00 ≤ n && n ≤ 0xDFFF

def surrogatePair (high low : Nat) : Nat := 0x10000 + (high - 0xD800) * 0x400 + (low - 0xDC00)

def utf8 (n : Nat) : Bytes := String.utf8EncodeChar (Char.ofNat n)

def trailingSurrogate (high : Nat) : Reader Bytes
  | [] => .error (.before .endInString [])
  | [b] => .error (.before (if b = backslash then .endInString else .endOfHexEscape) [])
  | b :: u :: rest =>
    if b ≠ backslash then .error (.before .endOfHexEscape (u :: rest))
    else if u ≠ 0x75 then .error (.before .endOfHexEscape rest)
    else
      Result.widen (length_le_cons_cons b u rest) <| (hexEscape rest).check fun low t =>
        if isTrailingSurrogate low then .ok (utf8 (surrogatePair high low))
        else .error (.before .loneSurrogate t)

def unicodeEscape : Reader Bytes := fun s =>
  match hexEscape s with
  | .error e => .error e
  | .ok p =>
    if isTrailingSurrogate p.value then .error (.before .loneSurrogate p.rest)
    else if isLeadingSurrogate p.value then
      (trailingSurrogate p.value p.rest).widen (Nat.le_of_lt p.shorter)
    else .ok ⟨utf8 p.value, p.rest, p.shorter⟩

def simpleEscape? (b : UInt8) : Option UInt8 :=
  match b with
  | 0x22 => some 0x22
  | 0x5c => some 0x5c
  | 0x2f => some 0x2f
  | 0x62 => some 0x08
  | 0x66 => some 0x0c
  | 0x6e => some 0x0a
  | 0x72 => some 0x0d
  | 0x74 => some 0x09
  | _ => none

def escapeSequence : Reader Bytes
  | [] => .error (.before .endInString [])
  | b :: rest =>
    match simpleEscape? b with
    | some c => .ok ⟨[c], rest, length_lt_cons b rest⟩
    | none =>
      if b = 0x75 then (unicodeEscape rest).widen (length_le_cons b rest)
      else .error (.before .invalidEscape rest)

def content (s : Bytes) : Result Bytes s :=
  match s with
  | [] => .error (.before .endInString [])
  | b :: rest =>
    if b = quote then .ok ⟨[], rest, length_lt_cons b rest⟩
    else if b = backslash then
      Result.widen (length_le_cons b rest) <| (escapeSequence rest).andThen fun bytes t _ =>
        (content t).map (bytes ++ ·)
    else if b < 0x20 then .error (.before .controlCharacter rest)
    else Result.widen (length_le_cons b rest) <| (content rest).map (b :: ·)
termination_by s.length
decreasing_by all_goals (simp only [List.length_cons] at *; omega)

def characterLength? (s : Bytes) : Option Nat :=
  [1, 2, 3, 4].find? fun n => n ≤ s.length && (Bytes.text? (s.take n)).isSome

def afterInvalidByte (s : Bytes) : Bytes :=
  match s with
  | [] => []
  | b :: rest =>
    if b = backslash then afterInvalidByte (rest.drop 1)
    else
      match characterLength? (b :: rest) with
      | some n => afterInvalidByte (rest.drop (n - 1))
      | none => rest
termination_by s.length
decreasing_by all_goals (simp only [List.length_cons, List.length_drop] at *; omega)

def literal : Reader String := fun s => (content s).check fun bytes _ =>
  match Bytes.text? bytes with
  | some t => .ok t
  | none => .error (.before .invalidCodePoint (afterInvalidByte s))

end Highlight.Json
