import Highlight.Json.Collection

/-! Passing over a value that nobody asks for. Its brackets may nest to any depth, and its literals need
not spell text. -/

namespace Highlight.Json

namespace Skip

def literal (s : Bytes) : Result Unit s :=
  match s with
  | [] => .error (.before .endInString [])
  | b :: rest =>
    if b = quote then .ok ⟨(), rest, length_lt_cons b rest⟩
    else if b = backslash then
      match rest with
      | [] => .error (.before .endInString [])
      | c :: rest' =>
        if (simpleEscape? c).isSome then (literal rest').widen (length_le_cons_cons b c rest')
        else if c = 0x75 then
          Result.widen (length_le_cons_cons b c rest') <| (hexEscape rest').andThen fun _ t _ => literal t
        else .error (.before .invalidEscape rest')
    else if b < 0x20 then .error (.before .controlCharacter (b :: rest))
    else (literal rest).widen (length_le_cons b rest)
termination_by s.length
decreasing_by all_goals (simp only [List.length_cons] at *; omega)

def afterDigits (s : Bytes) : Bytes := s.dropWhile Number.isDigit

def exponent : Reader Unit
  | [] => .error (.before .invalidNumber [])
  | b :: rest =>
    if Number.isDigit b then
      .ok ⟨(), afterDigits rest, Nat.lt_succ_of_le (Number.length_dropWhile _ rest)⟩
    else if b = 0x2b ∨ b = minus then
      match rest with
      | [] => .error (.before .invalidNumber [])
      | c :: rest' =>
        if Number.isDigit c then
          .ok ⟨(), afterDigits rest', by
            exact Nat.lt_succ_of_lt (length_lt_cons_of_le c (Number.length_dropWhile Number.isDigit rest'))⟩
        else .error (.before .invalidNumber rest')
    else .error (.before .invalidNumber rest)

def number : Reader Unit
  | [] => .error (.before .invalidNumber [])
  | b :: rest =>
    if !Number.isDigit b then .error (.before .invalidNumber rest)
    else if b = 0x30 ∧ rest.head?.any Number.isDigit then .error (.inFirst .invalidNumber rest)
    else
      have h := Number.length_dropWhile Number.isDigit rest
      match h₁ : afterDigits rest with
      | [] => .ok ⟨(), [], length_nil_lt_cons b rest⟩
      | c :: t =>
        have ht : t.length < rest.length := by unfold afterDigits at h₁; rw [h₁] at h; exact h
        if Number.isExponentMark c then (exponent t).widen (length_le_cons_of_lt b ht)
        else if c = 0x2e then
          if !t.head?.any Number.isDigit then .error (.inFirst .invalidNumber t)
          else
            have h' := Number.length_dropWhile Number.isDigit t
            match h₂ : afterDigits t with
            | [] => .ok ⟨(), [], length_nil_lt_cons b rest⟩
            | e :: u =>
              have hu : u.length < t.length := by unfold afterDigits at h₂; rw [h₂] at h'; exact h'
              if Number.isExponentMark e then (exponent u).widen (length_le_cons_of_lt b (Nat.lt_trans hu ht))
              else .ok ⟨(), e :: u, length_lt_cons_of_lt b (Nat.lt_of_le_of_lt hu ht)⟩
        else .ok ⟨(), c :: t, length_lt_cons_of_le b ht⟩

inductive Expecting
  | value
  | firstPart
  | nextPart

structure Step where
  expecting : Expecting
  opened : List UInt8

def closing (b : UInt8) : UInt8 := if b = openBracket then closeBracket else closeBrace

def endFault (bracket : UInt8) : Fault :=
  .inFirst (if bracket = openBracket then .endInList else .endInObject) []

def value (opened : List UInt8) : Reader Step := Reader.afterSpace fun s =>
  match s with
  | [] => .error (.inFirst .endInValue [])
  | b :: rest =>
    match wordOf? b with
    | some (letters, _) =>
      (word letters rest).map fun ⟨r, h⟩ => ⟨⟨.nextPart, opened⟩, r, length_lt_cons_of_le b h⟩
    | none =>
      if b = minus then
        (Result.map (fun _ => ⟨.nextPart, opened⟩) (number rest)).widen (length_le_cons b rest)
      else if Number.isDigit b then Result.map (fun _ => ⟨.nextPart, opened⟩) (number (b :: rest))
      else if b = quote then
        (Result.map (fun _ => ⟨.nextPart, opened⟩) (literal rest)).widen (length_le_cons b rest)
      else if b = openBracket ∨ b = openBrace then .ok ⟨⟨.firstPart, b :: opened⟩, rest, length_lt_cons b rest⟩
      else .error (.inFirst .expectedValue (b :: rest))

def part (bracket : UInt8) (opened : List UInt8) : Reader Step := fun s =>
  if bracket = openBracket then value (bracket :: opened) s
  else
    match ahead? s with
    | none => .error (.inFirst .endInObject [])
    | some (b, ⟨rest, h⟩) =>
      if b = quote then
        Result.widen (length_le_of_lt h) <| (literal rest).andThen fun _ t _ =>
          Result.map (fun _ => ⟨.value, bracket :: opened⟩) (afterColon t)
      else .error (.inFirst .keyNotString (b :: rest))

def inside (first : Bool) (bracket : UInt8) (opened : List UInt8) : Reader Step := fun s =>
  match ahead? s with
  | none => .error (endFault bracket)
  | some (b, ⟨rest, h⟩) =>
    have hr : (b :: rest).length ≤ s.length := h
    if b = closing bracket then .ok ⟨⟨.nextPart, opened⟩, rest, h⟩
    else if first then (part bracket opened (b :: rest)).widen hr
    else if b = comma then (part bracket opened rest).widen (length_le_of_lt h)
    else .error (.inFirst
      (if bracket = openBracket then .expectedListCommaOrEnd else .expectedObjectCommaOrEnd)
      (b :: rest))

def step (e : Step) : Reader Step :=
  match e.expecting, e.opened with
  | .firstPart, bracket :: opened => inside true bracket opened
  | .nextPart, bracket :: opened => inside false bracket opened
  | _, opened => value opened

def run (e : Step) (s : Bytes) : Result Unit s :=
  match step e s with
  | .error f => .error f
  | .ok ⟨⟨.nextPart, []⟩, rest, h⟩ => .ok ⟨(), rest, h⟩
  | .ok ⟨e, rest, h⟩ => (run e rest).widen (length_le_of_lt h)
termination_by s.length

end Skip

def skip : Reader Unit := Skip.run ⟨.value, []⟩

end Highlight.Json
