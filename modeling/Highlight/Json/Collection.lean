import Highlight.Json.Scalar

/-! Reading arrays and objects, whatever their parts are. -/

namespace Highlight.Json

def comma : UInt8 := 0x2c

def colon : UInt8 := 0x3a

inductive Next (s : Bytes)
  | part (rest : Bytes) (h : rest.length ≤ s.length)
  | closed (rest : Bytes) (h : rest.length < s.length)

/-- What a kind of collection looks like between its parts, and which faults there are. -/
structure Punctuation where
  close : UInt8
  unended : Cause
  unseparated : Cause
  part (b : UInt8) (rest : Bytes) : Except Fault { t : Bytes // t.length ≤ rest.length + 1 }
  close_ne_comma : close ≠ comma := by decide
  isSpace_close : isSpace close = false := by decide

def Punctuation.start (c : Punctuation) {s : Bytes} (b : UInt8) (rest : Bytes) (h : rest.length < s.length) :
    Except Fault (Next s) :=
  match c.part b rest with
  | .ok ⟨t, ht⟩ => .ok (.part t (Nat.le_trans ht h))
  | .error e => .error e

def Punctuation.next (c : Punctuation) (first : Bool) (s : Bytes) : Except Fault (Next s) :=
  match ahead? s with
  | none => .error (.inFirst c.unended [])
  | some (b, ⟨rest, h⟩) =>
    if b = c.close then .ok (.closed rest h)
    else if first then c.start b rest h
    else if b = comma then
      match ahead? rest with
      | none => .error (.inFirst .endInValue [])
      | some (d, ⟨rest', h'⟩) =>
        if d = c.close then .error (.inFirst .trailingComma (d :: rest'))
        else c.start d rest' (Nat.lt_trans h' h)
    else .error (.inFirst c.unseparated (b :: rest))

def inArray : Punctuation where
  close := closeBracket
  unended := .endInList
  unseparated := .expectedListCommaOrEnd
  part b rest := .ok ⟨b :: rest, Nat.le_refl _⟩

def inObject : Punctuation where
  close := closeBrace
  unended := .endInObject
  unseparated := .expectedObjectCommaOrEnd
  part b rest :=
    if b = quote then .ok ⟨rest, Nat.le_succ _⟩ else .error (.inFirst .keyNotString (b :: rest))

def nextItem (i : Nat) (s : Bytes) : Except Fault (Next s) := inArray.next (i = 0) s

def nextKey (first : Bool) (s : Bytes) : Except Fault (Next s) := inObject.next first s

def items {α : Type} (item : Reader α) (i : Nat) (s : Bytes) : Result (List α) s :=
  match nextItem i s with
  | .error e => .error e
  | .ok (.closed rest h) => .ok ⟨[], rest, h⟩
  | .ok (.part t ht) =>
    Result.widen ht <| ((item t).within (.index i)).andThen fun a u _ =>
      (items item (i + 1) u).map (a :: ·)
termination_by s.length

def endArray (s : Bytes) : Except Fault { r : Bytes // r.length < s.length } :=
  match ahead? s with
  | none => .error (.inFirst .endInList [])
  | some (b, rest) =>
    if b = closeBracket then .ok rest
    else if b = comma then
      let t := skipSpace rest
      .error (.inFirst (if t.head? = some closeBracket then .trailingComma else .trailingCharacters) t)
    else .error (.inFirst .trailingCharacters (b :: rest.1))

def afterArray (s : Bytes) : Bytes :=
  match skipSpace s with
  | [] => []
  | b :: rest =>
    if b = closeBracket then rest
    else if b = comma then skipSpace rest
    else b :: rest

def afterObject (s : Bytes) : Bytes :=
  match skipSpace s with
  | [] => []
  | b :: rest => if b = closeBrace then rest else b :: rest

def afterColon : Reader Unit := fun s =>
  match ahead? s with
  | none => .error (.inFirst .endInObject [])
  | some (b, ⟨rest, h⟩) =>
    if b = colon then .ok ⟨(), rest, h⟩ else .error (.inFirst .expectedColon (b :: rest))

/-- The members of an object, and its closing brace. `member` reads on from behind a key and takes
what is known of the object from before that member to after it. -/
def members {β : Type} (member : β → String → Reader β) (state : β) (first : Bool) (s : Bytes) :
    Result β s :=
  match nextKey first s with
  | .error e => .error (e.within .unknown)
  | .ok (.closed rest h) => .ok ⟨state, rest, h⟩
  | .ok (.part t ht) =>
    Result.widen ht <| ((literal t).within .unknown).andThen fun key u _ =>
      (member state key u).andThen fun state v _ => members member state false v
termination_by s.length

def memberValue {α : Type} (key : String) (value : Reader α) : Reader α := fun s =>
  (afterColon s).andThen fun _ t _ => (value t).within (.key key)

end Highlight.Json
