import Highlight.Text.Numeral
import Mathlib.Tactic.Common
import Mathlib.Data.List.Basic

/-! Numbers read back from the text that they are written as. -/

namespace Highlight

namespace Digits

lemma hexValue?_digit {c : Char} (h : c.isDigit = true) :
    hexValue? c = some (c.toNat - '0'.toNat) := by
  have hc : '0' ≤ c ∧ c ≤ '9' := by simpa [Char.isDigit, Char.le_def] using h
  rw [hexValue?, if_pos hc]

lemma ofDigits_eq_ofDigitChars (cs : List Char) :
    ofDigits 10 (cs.map fun c => c.toNat - '0'.toNat) = Nat.ofDigitChars 10 cs 0 := by
  rw [ofDigits, List.foldl_map, Nat.ofDigitChars_eq_foldl]
  simp only [Nat.mul_comm]

lemma isDigit_of_mem_decimal {n : ℕ} {c : Char} (h : c ∈ decimal n) : c.isDigit = true :=
  Nat.isDigit_of_mem_toDigits (by decide) (by decide) h

end Digits

namespace Numeral

open Digits

lemma mapM_digits {cs : List Char} (h : ∀ c ∈ cs, c.isDigit = true) :
    cs.mapM (fun c => (hexValue? c).filter (· < 10)) = some (cs.map fun c => c.toNat - '0'.toNat) := by
  induction cs with
  | nil => rfl
  | cons c cs ih =>
    have hc : c.toNat - '0'.toNat < 10 := by
      have hd := h c (by simp)
      simp only [Char.isDigit, Bool.and_eq_true, decide_eq_true_eq, UInt32.le_iff_toNat_le] at hd
      have h9 : c.toNat ≤ 57 := hd.2
      have h0 : '0'.toNat = 48 := rfl
      omega
    rw [List.mapM_cons, hexValue?_digit (h c (by simp)), Option.filter_some, if_pos (by simpa using hc),
      ih fun d hd => h d (by simp [hd])]
    rfl

lemma natural?_decimal (n : ℕ) : natural? 10 (decimal n) = some n := by
  have hne : ¬ (decimal n).isEmpty := by simp [decimal, Nat.toDigits_ne_nil]
  rw [natural?, if_neg hne, mapM_digits fun c => isDigit_of_mem_decimal, Option.map_some,
    ofDigits_eq_ofDigitChars, decimal, Nat.ofDigitChars_ten_toDigits]

lemma unplus_of_digits {cs : List Char} (h : ∀ c ∈ cs, c.isDigit = true) : unplus cs = cs := by
  unfold unplus
  split
  · next cs => exact absurd (h '+' (by simp)) (by decide)
  · rfl

lemma integer?_of_digits {cs : List Char} (h : ∀ c ∈ cs, c.isDigit = true) :
    integer? cs = unsigned? 10 cs := by
  unfold integer?
  split
  · next cs => exact absurd (h 'x' (by simp)) (by decide)
  · next cs => exact absurd (h '-' (by simp)) (by decide)
  · rfl

lemma integer?_repr {n : Int} (hl : -signedEnd ≤ n) (hu : n < wordEnd) :
    integer? n.repr.toList = some n := by
  rw [Int.repr_eq_if]
  split
  · next h =>
    have hd : ∀ c ∈ decimal n.toNat, c.isDigit = true := fun c => isDigit_of_mem_decimal
    have hlt : n.toNat < wordEnd := by omega
    rw [Nat.toList_repr, ← decimal, integer?_of_digits hd, unsigned?, unplus_of_digits hd,
      natural?_decimal, Option.filter_some, if_pos (by simpa using hlt)]
    exact congrArg some (Int.toNat_of_nonneg h)
  · next h =>
    have hle : (-n).toNat ≤ signedEnd := by omega
    have hs : ("-" ++ (-n).toNat.repr).toList = '-' :: decimal (-n).toNat := by
      rw [String.toList_append, Nat.toList_repr]
      rfl
    have hn : -((-n).toNat : Int) = n := by omega
    have hi (cs : List Char) : integer? ('-' :: cs) =
        ((natural? 10 cs).filter (· ≤ signedEnd)).map fun n => -(n : Int) := rfl
    rw [hs, hi, natural?_decimal, Option.filter_some, if_pos (by simpa using hle)]
    exact congrArg some hn

end Numeral

end Highlight
