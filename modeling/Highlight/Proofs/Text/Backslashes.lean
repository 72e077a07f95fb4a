import Mathlib.Algebra.Ring.Parity
import Mathlib.Data.List.DropRight
import Mathlib.Tactic.Common

/-! How many backslashes a text ends with. -/

namespace Highlight

def backslashes (u : List Char) : ℕ := (u.rtakeWhile (· == '\\')).length

variable {u : List Char}

lemma backslashes_concat (u : List Char) (c : Char) :
    backslashes (u ++ [c]) = if c = '\\' then backslashes u + 1 else 0 := by
  rw [backslashes, List.rtakeWhile_concat]
  by_cases hc : c = '\\' <;> simp [hc, backslashes]

lemma even_backslashes_concat {c : Char} (hc : c ≠ '\\') : Even (backslashes (u ++ [c])) := by
  rw [backslashes_concat, if_neg hc]
  exact Even.zero

lemma odd_backslashes_concat (hu : Even (backslashes u)) : Odd (backslashes (u ++ ['\\'])) := by
  rw [backslashes_concat, if_pos rfl]
  exact hu.add_one

lemma even_backslashes_escape (hu : Even (backslashes u)) (c : Char) :
    Even (backslashes (u ++ ['\\'] ++ [c])) := by
  by_cases hc : c = '\\'
  · rw [hc, backslashes_concat, if_pos rfl]
    exact (odd_backslashes_concat hu).add_one
  · exact even_backslashes_concat hc

end Highlight
