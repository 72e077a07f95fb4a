import Highlight.Unicode.CaseFolding
import Highlight.Unicode.Property

/-! Sets of characters as patterns describe them. -/

namespace Highlight.Pattern

inductive CharSet
  | range (first last : Nat)
  | property (p : Unicode.Property)
  | union (s t : CharSet)
  | inter (s t : CharSet)
  | compl (s : CharSet)
  | folded (s : CharSet)
  deriving DecidableEq

namespace CharSet

def contains : CharSet → Char → Bool
  | .range first last, c => first ≤ c.toNat && c.toNat ≤ last
  | .property p, c => p.holds c
  | .union s t, c => s.contains c || t.contains c
  | .inter s t, c => s.contains c && t.contains c
  | .compl s, c => !s.contains c
  | .folded s, c => (Unicode.CaseFolding.variants c).any s.contains

def empty : CharSet := .range 1 0

def any : CharSet := .compl empty

def single (c : Char) : CharSet := .range c.toNat c.toNat

def code (n : Nat) : CharSet := .range n n

theorem contains_single (a : Char) : (single a).contains = (· == a) := by
  funext c
  rw [Bool.eq_iff_iff]
  simp only [single, contains, Bool.and_eq_true, decide_eq_true_eq, beq_iff_eq, ← Char.toNat_inj]
  exact ⟨fun h => Nat.le_antisymm h.2 h.1, fun h => ⟨Nat.le_of_eq h.symm, Nat.le_of_eq h⟩⟩

theorem contains_compl_single (a : Char) : (compl (.single a)).contains = (· != a) := by
  funext c
  rw [contains, contains_single]
  rfl

def notNewline : CharSet := .compl (single '\n')

theorem contains_notNewline : notNewline.contains = (· != '\n') := contains_compl_single '\n'

def newline : CharSet :=
  .union (.range 0x0a 0x0d) (.union (code 0x85) (.range 0x2028 0x2029))

def negatedIf (negated : Bool) (s : CharSet) : CharSet := if negated then .compl s else s

def asciiIf (ascii : Bool) (s : CharSet) : CharSet :=
  if ascii then .inter s (.property .ascii) else s

end CharSet

end Highlight.Pattern
