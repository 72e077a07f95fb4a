import Highlight.Json.Fault
import Highlight.Text.Remainder

/-! What a reader of JSON gets from the bytes before it. A reader that succeeds has taken at least one
byte, so reading ends. -/

namespace Highlight.Json

structure Parsed (α : Type) (s : Bytes) where
  value : α
  rest : Bytes
  shorter : rest.length < s.length

abbrev Result (α : Type) (s : Bytes) := Except Fault (Parsed α s)

abbrev Reader (α : Type) := (s : Bytes) → Result α s

namespace Result

variable {α β : Type} {s t : Bytes}

def widen (h : s.length ≤ t.length) : Result α s → Result α t
  | .ok p => .ok ⟨p.value, p.rest, Nat.lt_of_lt_of_le p.shorter h⟩
  | .error e => .error e

def andThen (r : Result α s) (f : α → (t : Bytes) → t.length < s.length → Result β t) :
    Result β s :=
  match r with
  | .ok p => (f p.value p.rest p.shorter).widen (Nat.le_of_lt p.shorter)
  | .error e => .error e

def check (r : Result α s) (f : α → Bytes → Except Fault β) : Result β s :=
  match r with
  | .ok p =>
    match f p.value p.rest with
    | .ok b => .ok ⟨b, p.rest, p.shorter⟩
    | .error e => .error e
  | .error e => .error e

def map (f : α → β) (r : Result α s) : Result β s := r.check fun a _ => .ok (f a)

def within (step : Step) : Result α s → Result α s
  | .ok p => .ok p
  | .error e => .error (e.within step)

end Result

def isSpace (b : UInt8) : Bool := b == 0x20 || b == 0x0a || b == 0x09 || b == 0x0d

def skipSpace (s : Bytes) : Bytes := s.dropWhile isSpace

theorem length_skipSpace (s : Bytes) : (skipSpace s).length ≤ s.length :=
  (List.dropWhile_sublist isSpace).length_le

def ahead? (s : Bytes) : Option (UInt8 × { r : Bytes // r.length < s.length }) :=
  match h : skipSpace s with
  | [] => none
  | b :: rest => some (b, ⟨rest, by have hs := length_skipSpace s; rw [h] at hs; exact hs⟩)

def Reader.afterSpace {α : Type} (r : Reader α) : Reader α := fun s =>
  (r (skipSpace s)).widen (length_skipSpace s)

end Highlight.Json
