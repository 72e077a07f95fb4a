import Highlight.Json.Skip
import Highlight.Proofs.Json.Outcome

/-! Reading and passing over numbers. -/

namespace Highlight.Json

open Result

namespace Number

def NoDigit (s : Bytes) : Prop := ∀ b ∈ s.head?, isDigit b = false

lemma takeWhile_digits {ds s : Bytes} (hd : ∀ b ∈ ds, isDigit b = true) (hs : NoDigit s) :
    (ds ++ s).takeWhile isDigit = ds := by
  rw [List.takeWhile_append_of_pos hd]
  cases s with
  | nil => simp
  | cons b s => simp [hs b (by simp)]

lemma dropWhile_digits {ds s : Bytes} (hd : ∀ b ∈ ds, isDigit b = true) (hs : NoDigit s) :
    (ds ++ s).dropWhile isDigit = s := by
  rw [List.dropWhile_append_of_pos hd]
  cases s with
  | nil => rfl
  | cons b s => simp [hs b (by simp)]

lemma noDigit_of_ends {rest : Bytes} (h : Ends rest) : NoDigit rest := by
  intro b hb
  rcases h b hb with hs | rfl | rfl | rfl
  · simp only [isSpace, Bool.or_eq_true, beq_iff_eq] at hs
    rcases hs with ((rfl | rfl) | rfl) | rfl <;> rfl
  all_goals rfl

lemma not_point_of_ends {b : UInt8} (h : EndsValue b) : b ≠ 0x2e := by
  rintro rfl
  revert h
  simp [EndsValue, isSpace, comma, closeBracket, closeBrace]

lemma not_mark_of_ends {b : UInt8} (h : EndsValue b) : isExponentMark b = false := by
  rcases h with hs | rfl | rfl | rfl
  · simp only [isSpace, Bool.or_eq_true, beq_iff_eq] at hs
    rcases hs with ((rfl | rfl) | rfl) | rfl <;> rfl
  all_goals rfl

lemma not_digit_of_mark {b : UInt8} (h : isExponentMark b = true) : isDigit b = false := by
  simp only [isExponentMark, Bool.or_eq_true, beq_iff_eq] at h
  rcases h with rfl | rfl <;> rfl

lemma real_of_toOption {m : Scaled} {negative : Bool} {x : Number}
    (h : (m.real negative []).toOption = some x) (rest : Bytes) : m.real negative rest = .ok x := by
  rw [toOption_eq_some_iff] at h
  unfold Scaled.real at *
  split at h
  · exact h
  · cases h

lemma integer_of_toOption {m : Scaled} {negative : Bool} {x : Number}
    (h : (m.integer negative []).toOption = some x) (rest : Bytes) :
    m.integer negative rest = .ok x := by
  unfold Scaled.integer at *
  split_ifs at h ⊢
  · exact real_of_toOption h rest
  · exact toOption_eq_some_iff.mp h
  · exact real_of_toOption h rest
  · exact toOption_eq_some_iff.mp h

/-! ### Exponents -/

lemma exponentDigits_append {ds rest : Bytes} (hd : ∀ b ∈ ds, isDigit b = true)
    (hr : NoDigit rest) (n : ℕ) :
    exponentDigits n (ds ++ rest) = (exponentDigits n ds).mapError (· ++ rest) := by
  induction ds generalizing n with
  | nil =>
    cases rest with
    | nil => rfl
    | cons b rest => simp [exponentDigits, hr b (by simp), Except.mapError]
  | cons b ds ih =>
    simp only [List.cons_append, exponentDigits, hd b (by simp), if_true]
    split
    · rfl
    · exact ih (fun c hc => hd c (by simp [hc])) _

lemma exponent_digits {m : Scaled} {negative : Bool} {e : Exponent} {x : Number}
    (h : Numeral.scaled m negative e = some x) {rest : Bytes} (hr : NoDigit rest) :
    (exponent m negative (e.sign = some minus) (e.first :: (e.more ++ rest))).outcome =
      .ok (x, rest) := by
  rw [exponent]
  simp only [e.first_digit, Bool.not_true, Bool.false_eq_true, if_false,
    exponentDigits_append e.more_digits hr]
  unfold Numeral.scaled at h
  dsimp only at h
  cases hd : exponentDigits (digitValue e.first) e.more with
  | ok p =>
    rw [hd] at h
    have hx := real_of_toOption h ((e.more ++ rest).dropWhile isDigit)
    simp only [decide_eq_true_eq, Except.mapError]
    rw [hx]
    simp [Except.map, dropWhile_digits e.more_digits hr]
  | error p =>
    rw [hd] at h
    dsimp only at h
    split at h
    · cases h
    · next hn =>
      obtain rfl := Option.some.inj h
      simp only [Except.mapError, Bool.not_eq_true', decide_eq_false_iff_not, hn, if_false]
      simp [Except.map, dropWhile_digits e.more_digits hr]

lemma signedExponent_text {m : Scaled} {negative : Bool} {e : Exponent} {x : Number}
    (h : Numeral.scaled m negative e = some x) {rest : Bytes} (hr : NoDigit rest) :
    (signedExponent m negative (e.sign.toList ++ e.first :: (e.more ++ rest))).outcome =
      .ok (x, rest) := by
  have hx := exponent_digits h hr
  cases hs : e.sign with
  | none =>
    have h₁ : e.first ≠ 0x2b := fun hf => absurd (hf ▸ e.first_digit) (by decide)
    have h₂ : e.first ≠ 0x2d := fun hf => absurd (hf ▸ e.first_digit) (by decide)
    simpa [signedExponent, h₁, h₂, hs] using hx
  | some b =>
    rcases e.sign_eq b hs with rfl | rfl
    · simpa [signedExponent, hs, minus] using hx
    · simpa [signedExponent, hs, minus] using hx

/-! ### Fractions and whole numbers -/

lemma exponent_append (e : Exponent) (rest : Bytes) :
    e.text ++ rest = e.mark :: (e.sign.toList ++ e.first :: (e.more ++ rest)) := by
  simp [Exponent.text]

lemma noDigit_exponent (e : Exponent) (rest : Bytes) : NoDigit (e.text ++ rest) := by
  intro b hb
  obtain rfl : e.mark = b := by simpa [Exponent.text] using hb
  exact not_digit_of_mark e.mark_eq

section Fraction

variable {m : Scaled} {negative : Bool} {d : UInt8} {ds : Bytes} {x : Number}

lemma fraction_plain (hd : ∀ b ∈ d :: ds, isDigit b = true) {rest : Bytes} (hr : Ends rest)
    (h : (((d :: ds).foldl Scaled.pushFraction { m with full := false }).real negative
      []).toOption = some x) :
    (fraction m negative (d :: (ds ++ rest))).outcome = .ok (x, rest) := by
  have hn := noDigit_of_ends hr
  have hds : ∀ b ∈ ds, isDigit b = true := fun b hb => hd b (by simp [hb])
  rw [fraction]
  simp only [hd d (by simp), Bool.not_true, Bool.false_eq_true, if_false, takeWhile_digits hds hn]
  split
  · next he =>
    obtain rfl : rest = [] := by rw [← dropWhile_digits hds hn, he]
    rw [real_of_toOption h]
    rfl
  · next b t he =>
    obtain rfl : rest = b :: t := by rw [← dropWhile_digits hds hn, he]
    rw [if_neg (by simp [not_mark_of_ends (hr b (by simp))]), real_of_toOption h]
    rfl

lemma fraction_exponent (hd : ∀ b ∈ d :: ds, isDigit b = true) {e : Exponent} {rest : Bytes}
    (hr : Ends rest) (h : Numeral.scaled
      ((d :: ds).foldl Scaled.pushFraction { m with full := false }) negative e = some x) :
    (fraction m negative (d :: (ds ++ (e.text ++ rest)))).outcome = .ok (x, rest) := by
  have hn := noDigit_exponent e rest
  have hds : ∀ b ∈ ds, isDigit b = true := fun b hb => hd b (by simp [hb])
  have hx := signedExponent_text h (noDigit_of_ends hr)
  rw [fraction]
  simp only [hd d (by simp), Bool.not_true, Bool.false_eq_true, if_false, takeWhile_digits hds hn]
  split
  · next he =>
    rw [dropWhile_digits hds hn, exponent_append] at he
    cases he
  · next b t he =>
    rw [dropWhile_digits hds hn, exponent_append] at he
    obtain ⟨rfl, rfl⟩ := List.cons.inj he
    rw [if_pos e.mark_eq, outcome_widen]
    exact hx

end Fraction

lemma afterWhole_text {n : Numeral} {x : Number} (h : n.value? = some x) (b : UInt8) {rest : Bytes}
    (hr : Ends rest) :
    (afterWhole n.wholePart n.negative b (n.fractionText ++ (n.exponentText ++ rest))).outcome =
      .ok (x, rest) := by
  unfold Numeral.value? Numeral.significand at h
  cases hf : n.fraction with
  | some f =>
    have hd := n.fraction_digits f hf
    have ht : n.fractionText = 0x2e :: f.1 :: f.2 := by rw [Numeral.fractionText, hf]; rfl
    rw [hf] at h
    rw [ht, List.cons_append, List.cons_append]
    simp only [afterWhole, if_true, outcome_widen]
    cases he : n.exponent with
    | none =>
      have ht : n.exponentText = [] := by rw [Numeral.exponentText, he]; rfl
      rw [he] at h
      rw [ht, List.nil_append]
      exact fraction_plain hd hr h
    | some e =>
      have ht : n.exponentText = e.text := by rw [Numeral.exponentText, he]; rfl
      rw [he] at h
      rw [ht]
      exact fraction_exponent hd hr h
  | none =>
    have ht : n.fractionText = [] := by rw [Numeral.fractionText, hf]; rfl
    rw [hf] at h
    rw [ht, List.nil_append]
    cases he : n.exponent with
    | none =>
      have ht : n.exponentText = [] := by rw [Numeral.exponentText, he]; rfl
      rw [he] at h
      rw [ht, List.nil_append]
      cases rest with
      | nil => simp [afterWhole, integer_of_toOption h, Except.map]
      | cons c t =>
        have hc := hr c (by simp)
        simp [afterWhole, not_point_of_ends hc, not_mark_of_ends hc, integer_of_toOption h,
          Except.map]
    | some e =>
      have ht : n.exponentText = e.text := by rw [Numeral.exponentText, he]; rfl
      have hp : e.mark ≠ 0x2e := fun hm => absurd (hm ▸ e.mark_eq) (by decide)
      rw [he] at h
      rw [ht, exponent_append]
      simp only [afterWhole, hp, e.mark_eq, if_false, if_true, outcome_widen]
      exact signedExponent_text h (noDigit_of_ends hr)

lemma noDigit_exponentText (n : Numeral) {rest : Bytes} (hr : Ends rest) :
    NoDigit (n.exponentText ++ rest) := by
  cases he : n.exponent with
  | some e => simpa [Numeral.exponentText, he] using noDigit_exponent e rest
  | none => simpa [Numeral.exponentText, he] using noDigit_of_ends hr

lemma noDigit_afterWhole (n : Numeral) {rest : Bytes} (hr : Ends rest) :
    NoDigit (n.fractionText ++ (n.exponentText ++ rest)) := by
  cases hf : n.fraction with
  | some f =>
    intro b hb
    obtain rfl : 0x2e = b := by simpa [Numeral.fractionText, hf] using hb
    rfl
  | none => simpa [Numeral.fractionText, hf] using noDigit_exponentText n hr

lemma unsigned_text {n : Numeral} {x : Number} (h : n.value? = some x) {rest : Bytes}
    (hr : Ends rest) :
    (unsigned n.negative
      (n.first :: (n.whole ++ (n.fractionText ++ (n.exponentText ++ rest))))).outcome =
      .ok (x, rest) := by
  have hn := noDigit_afterWhole n hr
  have ha := afterWhole_text h n.first hr
  by_cases hz : n.first = 0x30
  · have hp : n.wholePart = ⟨0, 0, false⟩ := by
      rw [Numeral.wholePart, hz, n.no_leading_zero hz]
      rfl
    have hh : (n.fractionText ++ (n.exponentText ++ rest)).head?.any isDigit = false := by
      cases hc : (n.fractionText ++ (n.exponentText ++ rest)).head? with
      | none => rfl
      | some b => exact hn b hc
    rw [n.no_leading_zero hz, List.nil_append, unsigned]
    rw [hp] at ha
    simpa only [hz, hh, Bool.false_eq_true, if_false, if_true] using ha
  · rw [unsigned]
    simp only [hz, n.first_digit, if_false, if_true, outcome_widen,
      takeWhile_digits n.whole_digits hn]
    rw [dropWhile_digits n.whole_digits hn]
    exact ha

end Number

lemma numeral_append (n : Numeral) (rest : Bytes) : n.text ++ rest =
    if n.negative then
      minus :: n.first :: (n.whole ++ (n.fractionText ++ (n.exponentText ++ rest)))
    else n.first :: (n.whole ++ (n.fractionText ++ (n.exponentText ++ rest))) := by
  cases hn : n.negative <;> simp [Numeral.text, hn]

lemma wordOf?_digit {b : UInt8} (h : Number.isDigit b = true) : wordOf? b = none := by
  unfold wordOf?
  split_ifs with h₁ h₂ h₃
  · exact absurd (h₁ ▸ h) (by decide)
  · exact absurd (h₂ ▸ h) (by decide)
  · exact absurd (h₃ ▸ h) (by decide)
  · rfl

lemma scalar_numeral {n : Numeral} {x : Number} (h : n.value? = some x) {rest : Bytes}
    (hr : Ends rest) : (scalar (n.text ++ rest)).outcome = .ok (.number x, rest) := by
  have hx := Number.unsigned_text h hr
  rw [numeral_append]
  cases hn : n.negative with
  | true =>
    rw [hn] at hx
    rw [if_pos rfl, scalar]
    simp only [show wordOf? minus = none by decide, if_true, outcome_widen, outcome_map, hx]
    rfl
  | false =>
    have hm : n.first ≠ minus := fun hf => absurd (hf ▸ n.first_digit) (by decide)
    rw [hn] at hx
    rw [if_neg (by simp), scalar]
    simp only [wordOf?_digit n.first_digit, hm, n.first_digit, if_false, if_true, outcome_map, hx]
    rfl

namespace Skip

open Number

lemma exponent_text (e : Exponent) {rest : Bytes} (hr : NoDigit rest) :
    (exponent (e.sign.toList ++ e.first :: (e.more ++ rest))).outcome = .ok ((), rest) := by
  have hm : afterDigits (e.more ++ rest) = rest := dropWhile_digits e.more_digits hr
  cases hs : e.sign with
  | none =>
    rw [Option.toList_none, List.nil_append, exponent.eq_def]
    simp [e.first_digit, hm]
  | some b =>
    rw [Option.toList_some, List.cons_append, List.nil_append]
    rcases e.sign_eq b hs with rfl | rfl
    · simp [exponent, show isDigit 0x2b = false by decide, e.first_digit, hm]
    · simp [exponent, show isDigit minus = false by decide, e.first_digit, hm]

lemma head_digit (n : Numeral) {rest : Bytes} (hr : Ends rest) :
    ¬ (n.first = 0x30 ∧
      (n.whole ++ (n.fractionText ++ (n.exponentText ++ rest))).head?.any isDigit = true) := by
  rintro ⟨hz, hh⟩
  rw [n.no_leading_zero hz, List.nil_append] at hh
  have hn := noDigit_afterWhole n hr
  cases hc : (n.fractionText ++ (n.exponentText ++ rest)).head? with
  | none => simp [hc] at hh
  | some b => simp [hc, hn b hc] at hh

lemma exponentText_cases (n : Numeral) {rest : Bytes} (hr : Ends rest) {b : UInt8} {t : Bytes}
    (h : n.exponentText ++ rest = b :: t) :
    isExponentMark b = true ∧ (exponent t).outcome = .ok ((), rest) ∨
      EndsValue b ∧ rest = b :: t := by
  cases he : n.exponent with
  | none =>
    have ht : n.exponentText = [] := by rw [Numeral.exponentText, he]; rfl
    rw [ht, List.nil_append] at h
    exact .inr ⟨hr b (by simp [h]), h⟩
  | some e =>
    have ht : n.exponentText = e.text := by rw [Numeral.exponentText, he]; rfl
    rw [ht, exponent_append] at h
    obtain ⟨rfl, rfl⟩ := List.cons.inj h
    exact .inl ⟨e.mark_eq, exponent_text e (noDigit_of_ends hr)⟩

lemma number_text (n : Numeral) {rest : Bytes} (hr : Ends rest) :
    (number (n.first :: (n.whole ++ (n.fractionText ++ (n.exponentText ++ rest))))).outcome =
      .ok ((), rest) := by
  have hw : afterDigits (n.whole ++ (n.fractionText ++ (n.exponentText ++ rest))) =
      n.fractionText ++ (n.exponentText ++ rest) :=
    dropWhile_digits n.whole_digits (noDigit_afterWhole n hr)
  rw [number]
  simp only [n.first_digit, Bool.not_true, Bool.false_eq_true, if_false, head_digit n hr]
  split
  · next h =>
    obtain ⟨-, -, rfl⟩ : n.fractionText = [] ∧ n.exponentText = [] ∧ rest = [] := by
      simpa using hw.symm.trans h
    rfl
  · next c t h =>
    have hc := hw.symm.trans h
    cases hf : n.fraction with
    | none =>
      have ht : n.fractionText = [] := by rw [Numeral.fractionText, hf]; rfl
      rw [ht, List.nil_append] at hc
      rcases exponentText_cases n hr hc with ⟨hm, he⟩ | ⟨hm, rfl⟩
      · rw [if_pos hm, outcome_widen, he]
      · rw [if_neg (by simp [not_mark_of_ends hm]), if_neg (not_point_of_ends hm)]
        rfl
    | some f =>
      have ht : n.fractionText = 0x2e :: f.1 :: f.2 := by rw [Numeral.fractionText, hf]; rfl
      rw [ht, List.cons_append, List.cons_append] at hc
      obtain ⟨rfl, rfl⟩ := List.cons.inj hc
      have hd := n.fraction_digits f hf
      have ha : afterDigits (f.1 :: f.2 ++ (n.exponentText ++ rest)) = n.exponentText ++ rest :=
        dropWhile_digits hd (noDigit_exponentText n hr)
      have hh : (f.1 :: (f.2 ++ (n.exponentText ++ rest))).head?.any isDigit = true := hd _ (by simp)
      rw [if_neg (by decide), if_pos rfl]
      simp only [hh, Bool.not_true, Bool.false_eq_true, if_false]
      split
      · next h₂ =>
        obtain ⟨-, rfl⟩ : n.exponentText = [] ∧ rest = [] := by simpa using ha.symm.trans h₂
        rfl
      · next b u h₂ =>
        rcases exponentText_cases n hr (ha.symm.trans h₂) with ⟨hm, he⟩ | ⟨hm, rfl⟩
        · rw [if_pos hm, outcome_widen, he]
        · rw [if_neg (by simp [not_mark_of_ends hm])]
          rfl

end Skip

end Highlight.Json
