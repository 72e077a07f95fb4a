import Highlight.Captures

/-! Grammars for syntax highlighting: an ordered list of rules, of which the first that matches
counts. -/

namespace Highlight

/-- A rule gives a scope name to what one pattern matches, or to a region that one pattern opens
and another closes. A region may hold rules of its own; no list of them and an empty list are
different things. -/
inductive Rule
  | single (name pattern : String) (captures : Option Captures)
  | region (name opening closing : String) (patterns : Option (List Rule))
      (openingCaptures closingCaptures : Option Captures)

namespace Rule

def name : Rule → String
  | .single name .. => name
  | .region name .. => name

def isSingle : Rule → Bool
  | .single .. => true
  | .region .. => false

def isRegion (r : Rule) : Bool := !r.isSingle

mutual

def decEq : (r s : Rule) → Decidable (r = s)
  | .single n p c, .single n' p' c' =>
    if h : n = n' ∧ p = p' ∧ c = c' then .isTrue (by simp [h]) else .isFalse (by simpa using h)
  | .region n o e ps oc cc, .region n' o' e' ps' oc' cc' =>
    if h : n = n' ∧ o = o' ∧ e = e' ∧ oc = oc' ∧ cc = cc' then
      match decEqNested ps ps' with
      | .isTrue hp => .isTrue (by simp [h, hp])
      | .isFalse hp => .isFalse (by simp [hp])
    else .isFalse (by simp only [Rule.region.injEq]; grind)
  | .single .., .region .. => .isFalse nofun
  | .region .., .single .. => .isFalse nofun

def decEqNested : (ps qs : Option (List Rule)) → Decidable (ps = qs)
  | none, none => .isTrue rfl
  | some ps, some qs =>
    match decEqList ps qs with
    | .isTrue h => .isTrue (by rw [h])
    | .isFalse h => .isFalse (by simpa using h)
  | none, some _ => .isFalse nofun
  | some _, none => .isFalse nofun

def decEqList : (ps qs : List Rule) → Decidable (ps = qs)
  | [], [] => .isTrue rfl
  | p :: ps, q :: qs =>
    match decEq p q with
    | .isTrue h =>
      match decEqList ps qs with
      | .isTrue ht => .isTrue (by rw [h, ht])
      | .isFalse ht => .isFalse (by simp [ht])
    | .isFalse h => .isFalse (by simp [h])
  | [], _ :: _ => .isFalse nofun
  | _ :: _, [] => .isFalse nofun

end

instance : DecidableEq Rule := decEq

end Rule

structure Grammar where
  name : String
  scopeName : String
  fileTypes : List String
  patterns : List Rule
  deriving DecidableEq

end Highlight
