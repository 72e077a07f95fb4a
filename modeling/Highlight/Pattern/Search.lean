import Highlight.Pattern.Compile
import Highlight.Pattern.Matcher

/-! Searching a text for a pattern. -/

namespace Highlight.Pattern

def callLimit : Nat := 24

def callMatcher (root : Node) (origin : List Char) : (calls : Nat) → Nat → Matcher
  | 0, _ => .fail
  | calls + 1, g => fun s k =>
    (root.target g).matcher (callMatcher root origin calls) origin (s.mark .called) fun t =>
      k (t.mark .returned)

def matcher (p : Pattern) (origin : List Char) : Matcher :=
  p.root.matcher (callMatcher p.root origin callLimit) origin

/-- Where a match and its groups are: how many characters come after the start and the end of each.
Group 0 is the match. -/
structure Match where
  groups : List (Option (List Char × List Char))
  finish : State

def matchAt? (p : Pattern) (origin : List Char) (s : State) : Option Match :=
  (p.matcher origin s some).map fun t =>
    let group (g : Nat) : Option (List Char × List Char) :=
      match State.start? g t.marks, State.finish? g t.marks with
      | some start, some finish => some (start, finish)
      | _, _ => none
    ⟨some (t.kept.getD s.after, t.after) :: (List.range p.groups).map fun i => group (i + 1), t⟩

def searchFrom? (p : Pattern) (origin before after : List Char) : Option Match :=
  match p.matchAt? origin { before, after } with
  | some m => some m
  | none =>
    match after with
    | [] => none
    | c :: rest => searchFrom? p origin (c :: before) rest

def search? (p : Pattern) (before after : List Char) : Option Match :=
  searchFrom? p after before after

def matchesFrom (p : Pattern) (fuel : Nat) (previous : Option Nat) (before after : List Char) :
    List Match :=
  match fuel with
  | 0 => []
  | fuel + 1 =>
    match p.search? before after with
    | none => []
    | some m =>
      let finish := m.finish.after.length
      let isEmpty := (m.groups.head?.join.any fun g => g.1.length == g.2.length)
      -- An empty match that ends where the match before it ended does not count.
      if isEmpty && previous == some finish then
        match after with
        | [] => []
        | c :: rest => matchesFrom p fuel previous (c :: before) rest
      else
        m :: matchesFrom p fuel (some finish) m.finish.before m.finish.after

def allMatches (p : Pattern) (text : List Char) : List Match :=
  p.matchesFrom (2 * text.length + 2) none [] text

def offset (text after : List Char) : Nat :=
  (text.take (text.length - after.length)).foldl (fun n c => n + c.utf8Size) 0

def Match.spans (m : Match) (text : List Char) : List (Option (Nat × Nat)) :=
  m.groups.map fun g => g.map fun (start, finish) => (offset text start, offset text finish)

end Highlight.Pattern
