import Highlight.Pattern.State

/-! Matching with backtracking. A matcher tries its ways to match in the order of preference, and goes
on to the next one if what comes after it fails. -/

namespace Highlight.Pattern

abbrev Matcher := State → (State → Option State) → Option State

namespace Matcher

def succeed : Matcher := fun s k => k s

def fail : Matcher := fun _ _ => none

def check (p : State → Bool) : Matcher := fun s k => if p s then k s else none

def change (f : State → State) : Matcher := fun s k => k (f s)

def one (p : Char → Bool) : Matcher := fun s k =>
  match s.next? with
  | some (c, t) => if p c then k t else none
  | none => none

def seq (m n : Matcher) : Matcher := fun s k => m s fun t => n t k

def or (m n : Matcher) : Matcher := fun s k => m s k <|> n s k

def atomic (m : Matcher) : Matcher := fun s k => (m s some).bind k

def ahead (positive : Bool) (m : Matcher) : Matcher := fun s k =>
  match m s some with
  | some t => if positive then k (t.moved s) else none
  | none => if positive then none else k s

def behindAt (m : Matcher) (present : State) (distance : Nat) : Option State :=
  (present.back? distance).bind fun s =>
    m s fun t => if t.after.length = present.after.length then some t else none

def behindFrom (m : Matcher) (present : State) (least : Nat) : (more : Nat) → Option State
  | 0 => behindAt m present least
  | more + 1 => behindAt m present least <|> behindFrom m present (least + 1) more

def behind (positive : Bool) (least : Nat) (most : Option Nat) (m : Matcher) : Matcher := fun s k =>
  let hidden := if most = some least then s.hidden else s.after.length
  let found := behindFrom m { s with hidden } least
    (match most with
      | some n => n - least
      | none => s.before.length)
  match found with
  | some t => if positive then k { t.moved s with hidden := s.hidden } else none
  | none => if positive then none else k s

/-- Any number of times. An iteration without text is the last one, unless it changes something; it may
do so `credit` times on end. -/
def star (m : Matcher) (greedy : Bool) (watched : List Nat) (credit : Nat) : Matcher := fun s k =>
  let again := fun (_ : Unit) => m s fun t =>
    if t.after.length < s.after.length then star m greedy watched (watched.length + 1) t k
    else if t.after.length = s.after.length ∧ 0 < credit ∧ t.differs s watched then
      star m greedy watched (credit - 1) t k
    else k t
  if greedy then again () <|> k s else k s <|> again ()
-- With less text left all of the credit is there again, so a character weighs more than that.
termination_by s => s.after.length * (watched.length + 2) + credit
decreasing_by
  · have hle := Nat.mul_le_mul_right (watched.length + 2) (Nat.succ_le_of_lt ‹_›)
    rw [Nat.succ_mul] at hle
    omega
  · obtain ⟨h, _, _⟩ := ‹_ ∧ _ ∧ _›
    rw [h]
    omega

def upTo (m : Matcher) (greedy counted : Bool) : Nat → Matcher
  | 0 => succeed
  | n + 1 => fun s k =>
    let again := fun (_ : Unit) => m s fun t =>
      if counted && t.after.length == s.after.length then k t else upTo m greedy counted n t k
    if greedy then again () <|> k s else k s <|> again ()

def times (m : Matcher) (counted : Bool) (rest : Matcher) : Nat → Matcher
  | 0 => rest
  | n + 1 => fun s k => m s fun t =>
    if counted && t.after.length == s.after.length then k t else times m counted rest n t k

def loop (q : Quantifier) (plan : LoopPlan) (m : Matcher) : Matcher :=
  let rest := match q.most with
    | none => star m q.greedy plan.watched (plan.watched.length + 1)
    | some most => upTo m q.greedy plan.counted (most - q.least)
  times m plan.counted rest q.least

def capture (g : Nat) (m : Matcher) : Matcher := fun s k =>
  m (s.mark (.opened g s.after)) fun t => k (t.mark (.closed g s.after t.after))

def sameAs (fold : Bool) (s : State) (k : State → Option State) : List (List Char) → Option State
  | [] => none
  | text :: texts =>
    match (s.sameLength? fold text).bind s.skip? with
    | some t => k t
    | none => sameAs fold s k texts

def conditional (c yes no : Matcher) : Matcher := fun s k =>
  match c s some with
  | some t => yes t k
  | none => no s k

/-- How many characters are out of reach if those are that come after the first place where a matcher
succeeds. -/
def hiddenFrom (m : Matcher) (s : State) : Nat :=
  if (m s some).isSome then max s.hidden s.after.length
  else
    match h : s.next? with
    | some (c, t) =>
      have := s.length_next h
      hiddenFrom m t
    | none => s.hidden
termination_by s.after.length

def absent (forbidden body : Matcher) : Matcher := fun s k =>
  body { s with hidden := hiddenFrom forbidden s } fun t => k { t with hidden := s.hidden }

def cutBefore (forbidden : Matcher) : Matcher := fun s k =>
  k { s with hidden := hiddenFrom forbidden s }

end Matcher

namespace Node

def matcher (call : Nat → Matcher) (origin : List Char) : Node → Matcher
  | .empty => .succeed
  | .never => .fail
  | .literal cs => cs.foldr (fun c m => .seq (.one (· == c)) m) .succeed
  | .folded cs => fun s k =>
    match (Unicode.CaseFolding.length? cs s.reachable).bind s.skip? with
    | some t => k t
    | none => none
  | .one set => .one set.contains
  | .anchor a => .check (·.holds origin a)
  | .keep => .change fun s => { s with kept := some s.after }
  | .sequence a b => .seq (a.matcher call origin) (b.matcher call origin)
  | .choice a b => .or (a.matcher call origin) (b.matcher call origin)
  | .loop q plan body => .loop q plan (body.matcher call origin)
  | .capture g body => .capture g (body.matcher call origin)
  | .scoped body => body.matcher call origin
  | .atomic body => .atomic (body.matcher call origin)
  | .lookAhead positive body => .ahead positive (body.matcher call origin)
  | .lookBehind positive least most body => .behind positive least most (body.matcher call origin)
  | .reference r fold => fun s k => Matcher.sameAs fold s k (s.referents r)
  | .captured r => .check fun s => !(s.referents r).isEmpty
  | .call g => call g
  | .conditional c yes no =>
    .conditional (c.matcher call origin) (yes.matcher call origin) (no.matcher call origin)
  | .absent forbidden body => .absent (forbidden.matcher call origin) (body.matcher call origin)
  | .cutBefore forbidden => .cutBefore (forbidden.matcher call origin)
  | .uncut => .change fun s => { s with hidden := 0 }

end Node

end Highlight.Pattern
