import Highlight.Grammar.Backreference
import Highlight.Proofs.Text.Backslashes

/-! The search for a back-reference takes every backslash together with the character after it, and yet a
digit counts just if an odd number of backslashes stand directly before it. -/

namespace Highlight

/-- A digit from 1 to 9 behind an odd number of backslashes, where `u` stands before the text. -/
def RefersBehind (u cs : List Char) : Prop :=
  ∃ v d w, cs = v ++ d :: w ∧ '1' ≤ d ∧ d ≤ '9' ∧ Odd (backslashes (u ++ v))

variable {u : List Char}

lemma not_refersBehind_nil (u : List Char) : ¬ RefersBehind u [] := by
  rintro ⟨v, d, w, h, -⟩
  simp at h

lemma refersBehind_cons (u : List Char) (c : Char) (cs : List Char) : RefersBehind u (c :: cs) ↔
    ('1' ≤ c ∧ c ≤ '9' ∧ Odd (backslashes u)) ∨ RefersBehind (u ++ [c]) cs := by
  constructor
  · rintro ⟨v, d, w, h, hd, hd', hodd⟩
    cases v with
    | nil =>
      obtain ⟨rfl, rfl⟩ := List.cons.inj h
      exact .inl ⟨hd, hd', by simpa using hodd⟩
    | cons b v =>
      obtain ⟨rfl, rfl⟩ := List.cons.inj h
      exact .inr ⟨v, d, w, rfl, hd, hd', by simpa using hodd⟩
  · rintro (⟨hd, hd', hodd⟩ | ⟨v, d, w, rfl, hd, hd', hodd⟩)
    · exact ⟨[], c, cs, rfl, hd, hd', by simpa using hodd⟩
    · exact ⟨c :: v, d, w, rfl, hd, hd', by simpa using hodd⟩

lemma refersBehind_of_even (hu : Even (backslashes u)) (c : Char) (cs : List Char) :
    RefersBehind u (c :: cs) ↔ RefersBehind (u ++ [c]) cs := by
  rw [refersBehind_cons, or_iff_right]
  rintro ⟨-, -, hodd⟩
  exact Nat.not_odd_iff_even.mpr hu hodd

lemma hasBackreference_iff_refersBehind (hu : Even (backslashes u)) (cs : List Char) :
    hasBackreference cs = true ↔ RefersBehind u cs := by
  fun_induction hasBackreference cs generalizing u with
  | case1 => simpa using not_refersBehind_nil u
  | case2 c rest ih =>
    have hodd := odd_backslashes_concat hu
    rw [refersBehind_of_even hu, refersBehind_cons, ← ih (even_backslashes_escape hu c)]
    simp only [Bool.or_eq_true, Bool.and_eq_true, decide_eq_true_eq, hodd, and_true]
  | case3 c rest hnot ih =>
    rw [refersBehind_of_even hu]
    by_cases hc : c = '\\'
    · -- A backslash at the end has no character to take with it.
      subst hc
      cases rest with
      | nil => simpa [hasBackreference] using not_refersBehind_nil (u ++ ['\\'])
      | cons d rest => exact (hnot d rest rfl rfl).elim
    · exact ih (even_backslashes_concat hc)

theorem hasBackreference_iff (pattern : List Char) : hasBackreference pattern = true ↔
    ∃ u d v, pattern = u ++ d :: v ∧ '1' ≤ d ∧ d ≤ '9' ∧ Odd (u.rtakeWhile (· == '\\')).length :=
  hasBackreference_iff_refersBehind (u := []) Even.zero pattern

end Highlight
