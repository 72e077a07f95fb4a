/-! What is left of a list is shorter than the list. -/

namespace Highlight

variable {α : Type} {r s : List α}

theorem length_le_of_lt (h : r.length < s.length) : r.length ≤ s.length := Nat.le_of_lt h

theorem length_lt_cons (a : α) (s : List α) : s.length < (a :: s).length := Nat.lt_succ_self _

theorem length_le_cons (a : α) (s : List α) : s.length ≤ (a :: s).length := Nat.le_succ _

theorem length_le_cons_cons (a b : α) (s : List α) : s.length ≤ (a :: b :: s).length :=
  Nat.le_succ_of_le (Nat.le_succ _)

theorem length_lt_four (a b c d : α) (s : List α) : s.length < (a :: b :: c :: d :: s).length :=
  Nat.lt_succ_of_le (Nat.le_add_right s.length 3)

theorem length_nil_lt_cons (a : α) (s : List α) : ([] : List α).length < (a :: s).length :=
  Nat.succ_pos _

theorem length_lt_cons_of_le (a : α) (h : r.length ≤ s.length) : r.length < (a :: s).length :=
  Nat.lt_succ_of_le h

theorem length_lt_cons_of_lt (a : α) (h : r.length < s.length) : r.length < (a :: s).length :=
  Nat.lt_succ_of_lt h

theorem length_le_cons_of_lt (a : α) (h : r.length < s.length) : r.length ≤ (a :: s).length :=
  Nat.le_succ_of_le (Nat.le_of_lt h)

end Highlight
