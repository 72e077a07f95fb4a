import Highlight.Pattern.CharSet
import Highlight.Pattern.Node
import Highlight.Unicode.FoldedText
import Highlight.Unicode.Grapheme

/-! Where matching has got to in a text, and what it has found on the way. A place in the text is known
by the characters after it. -/

namespace Highlight.Pattern

inductive Mark
  | opened (group : Nat) (start : List Char)
  | closed (group : Nat) (start finish : List Char)
  | called
  | returned

structure State where
  before : List Char
  after : List Char
  hidden : Nat := 0
  kept : Option (List Char) := none
  marks : List Mark := []

namespace State

def next? (s : State) : Option (Char × State) :=
  match s.after with
  | [] => none
  | c :: rest =>
    if s.hidden == 0 || s.hidden ≤ rest.length then
      some (c, { s with before := c :: s.before, after := rest })
    else none

theorem length_next {s t : State} {c : Char} (h : s.next? = some (c, t)) :
    t.after.length < s.after.length := by
  obtain ⟨before, after, hidden, kept, marks⟩ := s
  cases after with
  | nil => simp [next?] at h
  | cons d rest =>
    simp only [next?, Option.ite_none_right_eq_some, Option.some.injEq, Prod.mk.injEq] at h
    simp [← h.2.2]

def skip? (s : State) : Nat → Option State
  | 0 => some s
  | n + 1 => s.next?.bind fun (_, t) => t.skip? n

def reachable (s : State) : List Char := s.after.take (s.after.length - s.hidden)

def back? (s : State) : Nat → Option State
  | 0 => some s
  | n + 1 =>
    match s.before with
    | [] => none
    | c :: rest => { s with before := rest, after := c :: s.after }.back? n

def moved (s t : State) : State := { s with before := t.before, after := t.after }

def mark (s : State) (m : Mark) : State := { s with marks := m :: s.marks }

def start? (g : Nat) : List Mark → Option (List Char)
  | [] => none
  | .opened h start :: ms | .closed h start _ :: ms => if h = g then some start else start? g ms
  | _ :: ms => start? g ms

def finish? (g : Nat) : List Mark → Option (List Char)
  | [] => none
  | .closed h _ finish :: ms => if h = g then some finish else finish? g ms
  | _ :: ms => finish? g ms

def between (start finish : List Char) : List Char := start.take (start.length - finish.length)

def text? (s : State) (g : Nat) : Option (List Char) :=
  match start? g s.marks, finish? g s.marks with
  | some start, some finish => some (between start finish)
  | _, _ => none

/-- The text of the last of some groups on a level; `depth` is the level of the first mark, and
`finish` is where such a group ended. -/
def levelText? (groups : List Nat) (level : Int) (depth : Int) (finish : Option (List Char)) :
    List Mark → Option (List Char)
  | [] => none
  | .called :: ms => levelText? groups level (depth - 1) finish ms
  | .returned :: ms => levelText? groups level (depth + 1) finish ms
  | .opened g start :: ms =>
    if depth = level ∧ groups.contains g then
      match finish with
      | some f => some (between start f)
      | none => levelText? groups level depth finish ms
    else levelText? groups level depth finish ms
  | .closed g _ f :: ms =>
    levelText? groups level depth (if depth = level ∧ groups.contains g then some f else finish) ms

def referents (s : State) (r : Reference) : List (List Char) :=
  match r.level with
  | none => r.groups.reverse.filterMap s.text?
  | some level => (levelText? r.groups level 0 none s.marks).toList

def sameLength? (s : State) (fold : Bool) (text : List Char) : Option Nat :=
  let seen := s.reachable
  if fold then
    if Unicode.CaseFolding.bytes text ≤ Unicode.CaseFolding.bytes seen then
      Unicode.CaseFolding.parallel? text seen
    else none
  else if text.isPrefixOf seen then some text.length
  else none

def isWordAt (ascii : Bool) (c : Char) : Bool :=
  if ascii then Unicode.isAscii c && Unicode.isWord c else Unicode.isWord c

def isWordBoundary (s : State) (ascii : Bool) : Bool :=
  (s.before.head?.any (isWordAt ascii)) != (s.after.head?.any (isWordAt ascii))

def holds (s : State) (origin : List Char) : Anchor → Bool
  | .textStart => s.before.isEmpty
  | .textEnd => s.after.isEmpty
  | .textEndOrFinalNewline => s.after.isEmpty || s.after == ['\n']
  | .lineStart => s.before.isEmpty || (s.before.head? == some '\n' && !s.after.isEmpty)
  | .lineEnd => s.after.isEmpty || s.after.head? == some '\n'
  | .searchStart => s.after.length == origin.length
  | .wordBoundary ascii => s.isWordBoundary ascii
  | .noWordBoundary ascii => !s.isWordBoundary ascii
  | .clusterBoundary => Unicode.Grapheme.isBoundary s.before s.after
  | .noClusterBoundary => !Unicode.Grapheme.isBoundary s.before s.after

def differs (s t : State) (groups : List Nat) : Bool :=
  groups.any fun g =>
    (start? g s.marks).map List.length != (start? g t.marks).map List.length ||
      (finish? g s.marks).map List.length != (finish? g t.marks).map List.length

end State

end Highlight.Pattern
