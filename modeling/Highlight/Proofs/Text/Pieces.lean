import Highlight.Text.Pieces
import Mathlib.Tactic.Common
import Mathlib.Data.List.Basic

/-! Text cut at separators and put together again. -/

namespace Highlight

lemma pieces_intercalate {separator : Char} {ws : List (List Char)} (hne : ws ≠ [])
    (h : ∀ w ∈ ws, separator ∉ w) : pieces separator ([separator].intercalate ws) = ws := by
  induction ws with
  | nil => exact absurd rfl hne
  | cons w ws ih =>
    cases ws with
    | nil => simpa using pieces_of_not_mem (h w (by simp))
    | cons x ws =>
      have hx := ih (by simp) fun w hw => h w (by simp [hw])
      rw [List.intercalate_cons_cons, List.append_assoc, List.singleton_append,
        pieces_append_cons (h w (by simp)), hx]

lemma intercalate_pieces (separator : Char) (cs : List Char) :
    [separator].intercalate (pieces separator cs) = cs := by
  induction cs with
  | nil => rfl
  | cons c cs ih =>
    rw [pieces]
    split
    · next h => rw [List.intercalate_cons_of_ne_nil (pieces_ne_nil separator cs), ih, h]; simp
    · cases hp : pieces separator cs with
      | nil => exact absurd hp (pieces_ne_nil separator cs)
      | cons w ws =>
        rw [hp] at ih
        cases ws with
        | nil => simpa using ih
        | cons x ws => simpa [List.intercalate_cons_cons] using ih

end Highlight
