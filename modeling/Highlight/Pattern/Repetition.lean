import Highlight.Pattern.Fault
import Highlight.Pattern.Node

/-! Repetition of what is repeated already: of the usual quantifiers, two in a row mean one. -/

namespace Highlight.Pattern

inductive Quantifier.Usual
  | option
  | star
  | plus
  | lazyOption
  | lazyStar
  | lazyPlus

namespace Quantifier

def usual? (q : Quantifier) : Option Usual :=
  match q.least, q.most, q.greedy with
  | 0, some 1, true => some .option
  | 0, none, true => some .star
  | 1, none, true => some .plus
  | 0, some 1, false => some .lazyOption
  | 0, none, false => some .lazyStar
  | 1, none, false => some .lazyPlus
  | _, _, _ => none

def star : Quantifier := ⟨0, none, true⟩

def plus : Quantifier := ⟨1, none, true⟩

def lazyStar : Quantifier := ⟨0, none, false⟩

def lazyOption : Quantifier := ⟨0, some 1, false⟩

inductive Nesting
  | inner
  | both
  | single (q : Quantifier)
  | pair (outer inner : Quantifier)

def nesting : (inner outer : Usual) → Nesting
  | .option, .option => .inner
  | .option, .star | .option, .plus => .single star
  | .option, .lazyOption => .single lazyOption
  | .option, .lazyStar => .single lazyStar
  | .option, .lazyPlus => .both
  | .star, .lazyOption | .star, .lazyStar => .pair lazyOption plus
  | .star, _ => .inner
  | .plus, .option | .plus, .star => .single star
  | .plus, .lazyOption => .both
  | .plus, .lazyStar => .pair lazyOption plus
  | .plus, _ => .inner
  | .lazyOption, .option | .lazyOption, .lazyOption => .inner
  | .lazyOption, _ => .single lazyStar
  | .lazyStar, _ => .inner
  | .lazyPlus, .lazyStar | .lazyPlus, .lazyOption => .single lazyStar
  | .lazyPlus, .lazyPlus => .inner
  | .lazyPlus, _ => .both

def limit : Nat := 100000

def productLimit : Nat := 2147483647

def nested (outer inner : Quantifier) (body : Node) : Except Fault Node :=
  match inner.usual?, outer.usual? with
  | some i, some o =>
    match nesting i o with
    | .inner => .ok (.repetition inner body)
    | .both => .ok (.repetition outer (.repetition inner body))
    | .single q => .ok (.repetition q body)
    | .pair o i => .ok (.repetition o (.repetition i body))
  | i, _ =>
    if outer.most = some outer.least ∧ inner.most = some inner.least then
      if outer.least * inner.least ≤ productLimit then
        .ok (.repetition ⟨outer.least * inner.least, some (outer.least * inner.least), outer.greedy⟩ body)
      else .error .tooBigRepeat
    else
      match i, outer.most, outer.greedy with
      | some .star, some (_ + 2), true | some .plus, some (_ + 2), true =>
        .ok (.repetition ⟨outer.least, some (max outer.least 1), true⟩ (.repetition inner body))
      | _, _, _ => .ok (.repetition outer (.repetition inner body))

def apply (q : Quantifier) (n : Node) : Except Fault Node :=
  if q.least = 1 ∧ q.most = some 1 then .ok n
  else
    match n with
    | .loop inner _ body => nested q inner body
    | n => .ok (.repetition q n)

end Quantifier

end Highlight.Pattern
