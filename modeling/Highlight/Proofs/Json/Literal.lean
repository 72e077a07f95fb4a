import Highlight.Json.Skip
import Highlight.Proofs.Json.Outcome

/-! Reading and passing over string literals. -/

namespace Highlight.Json

open Result Bytes

lemma hexEscape_quad {q : Bytes} {n : ℕ} (h : HexQuad q n) (rest : Bytes) :
    (hexEscape (q ++ rest)).outcome = .ok (n, rest) := by
  obtain ⟨a, b, c, d, a', b', c', d', rfl, ha, hb, hc, hd, rfl⟩ := h
  simp [hexEscape, ha, hb, hc, hd, Digits.ofDigits]

lemma isTrailingSurrogate_toNat (c : Char) : isTrailingSurrogate c.toNat = false := by
  have hc : c.toNat < 0xD800 ∨ 0xDFFF < c.toNat ∧ c.toNat < 0x110000 := c.valid
  simp only [isTrailingSurrogate, Bool.and_eq_false_iff, decide_eq_false_iff_not]
  omega

lemma isLeadingSurrogate_toNat (c : Char) : isLeadingSurrogate c.toNat = false := by
  have hc : c.toNat < 0xD800 ∨ 0xDFFF < c.toNat ∧ c.toNat < 0x110000 := c.valid
  simp only [isLeadingSurrogate, Bool.and_eq_false_iff, decide_eq_false_iff_not]
  omega

lemma not_isTrailing_of_isLeading {n : ℕ} (h : isLeadingSurrogate n = true) :
    isTrailingSurrogate n = false := by
  simp only [isLeadingSurrogate, isTrailingSurrogate, Bool.and_eq_true, decide_eq_true_eq,
    Bool.and_eq_false_iff, decide_eq_false_iff_not] at *
  omega

lemma unicodeEscape_unit {c : Char} {q : Bytes} (h : HexQuad q c.toNat) (rest : Bytes) :
    (unicodeEscape (q ++ rest)).outcome = .ok (String.utf8EncodeChar c, rest) := by
  have hx := hexEscape_quad h rest
  rw [unicodeEscape]
  split
  · next e he => simp [he] at hx
  · next p hp =>
    obtain ⟨hv, hr⟩ : p.value = c.toNat ∧ p.rest = rest := by simpa [hp, outcome] using hx
    simp [hv, hr, isTrailingSurrogate_toNat, isLeadingSurrogate_toNat, utf8]

lemma trailingSurrogate_quad {high low : ℕ} {r : Bytes} (h : HexQuad r low)
    (hl : isTrailingSurrogate low = true) (rest : Bytes) :
    (trailingSurrogate high (backslash :: 0x75 :: (r ++ rest))).outcome =
      .ok (utf8 (surrogatePair high low), rest) := by
  simp [trailingSurrogate, outcome_check, hexEscape_quad h, hl, Except.bind]

lemma unicodeEscape_pair {high low : ℕ} {q r : Bytes} (hq : HexQuad q high) (hr : HexQuad r low)
    (hh : isLeadingSurrogate high = true) (hl : isTrailingSurrogate low = true) (rest : Bytes) :
    (unicodeEscape (q ++ backslash :: 0x75 :: (r ++ rest))).outcome =
      .ok (utf8 (surrogatePair high low), rest) := by
  have hx := hexEscape_quad hq (backslash :: 0x75 :: (r ++ rest))
  rw [unicodeEscape]
  split
  · next e he => simp [he] at hx
  · next p hp =>
    obtain ⟨hv, hs⟩ : p.value = high ∧ p.rest = backslash :: 0x75 :: (r ++ rest) := by
      simpa [hp, outcome] using hx
    simp only [hv, not_isTrailing_of_isLeading hh, hh, Bool.false_eq_true, if_false, if_true,
      outcome_widen]
    rw [hs, trailingSurrogate_quad hr hl]

lemma utf8EncodeChar_of_simpleEscape? {b x : UInt8} (h : simpleEscape? b = some x) :
    String.utf8EncodeChar (Char.ofNat x.toNat) = [x] := by
  unfold simpleEscape? at h
  split at h <;> simp only [Option.some.injEq, reduceCtorEq] at h <;> subst h <;> rfl

def IsPlain (b : UInt8) : Prop := b ≠ quote ∧ b ≠ backslash ∧ ¬ b < 0x20

lemma isPlain_of_mem {c : Char} (hq : c ≠ '"') (hb : c ≠ '\\') (hc : 0x20 ≤ c.toNat) {b : UInt8}
    (h : b ∈ String.utf8EncodeChar c) : IsPlain b := by
  have hne {d : Char} (hd : d.toNat < 0x80) (hcd : c ≠ d) : b ≠ UInt8.ofNat d.toNat := by
    rintro rfl
    exact hcd (eq_of_mem_utf8EncodeChar hd h)
  have hlow : 0x20 ≤ b.toNat := le_of_mem_utf8EncodeChar (by decide) hc h
  exact ⟨hne (d := '"') (by decide) hq, hne (d := '\\') (by decide) hb,
    fun hx => Nat.not_lt_of_le hlow (UInt8.lt_iff_toNat_lt.mp hx)⟩

/-! ### The content of a literal -/

lemma content_quote (rest : Bytes) : (content (quote :: rest)).outcome = .ok ([], rest) := by
  rw [content]
  rfl

lemma content_plain {b : UInt8} (h : IsPlain b) (s : Bytes) :
    (content (b :: s)).outcome = (content s).outcome.map fun p => (b :: p.1, p.2) := by
  rw [content]
  simp [h.1, h.2.1, h.2.2]

lemma content_plains {bs : Bytes} (h : ∀ b ∈ bs, IsPlain b) (s : Bytes) :
    (content (bs ++ s)).outcome = (content s).outcome.map fun p => (bs ++ p.1, p.2) := by
  induction bs with
  | nil =>
    rw [List.nil_append]
    cases (content s).outcome <;> rfl
  | cons b bs ih =>
    rw [List.cons_append, content_plain (h b (by simp)), ih fun c hc => h c (by simp [hc])]
    cases (content s).outcome <;> rfl

lemma content_escape {s t bytes : Bytes} (h : (escapeSequence s).outcome = .ok (bytes, t)) :
    (content (backslash :: s)).outcome = (content t).outcome.map fun p => (bytes ++ p.1, p.2) := by
  obtain ⟨ht, hs⟩ := outcome_andThen (f := fun bytes t _ => (content t).map (bytes ++ ·)) h
  rw [content]
  simp only [show backslash ≠ quote by decide, if_false, if_true, outcome_widen]
  rw [hs, outcome_map]

lemma content_char {c : Char} {b : Bytes} (h : SpellsChar c b) (s : Bytes) :
    (content (b ++ s)).outcome =
      (content s).outcome.map fun p => (String.utf8EncodeChar c ++ p.1, p.2) := by
  cases h with
  | plain hq hb hc => exact content_plains (fun b hm => isPlain_of_mem hq hb hc hm) s
  | @short b x h =>
    rw [utf8EncodeChar_of_simpleEscape? h]
    exact content_escape (by simp [escapeSequence, h])
  | unit h =>
    exact content_escape (by simpa [escapeSequence, simpleEscape?] using unicodeEscape_unit h s)
  | @pair high low q r hq hr hh hl =>
    have hx := unicodeEscape_pair hq hr hh hl s
    rw [List.cons_append, List.cons_append, List.append_assoc, List.cons_append, List.cons_append]
    rw [utf8] at hx
    exact content_escape (by simpa [escapeSequence, simpleEscape?] using hx)

lemma content_chars {cs : List Char} {t : Bytes} (h : SpellsChars cs t) (rest : Bytes) :
    (content (t ++ quote :: rest)).outcome = .ok (ofChars cs, rest) := by
  induction h with
  | nil => exact content_quote rest
  | cons hc _ ih =>
    rw [List.append_assoc, content_char hc, ih]
    rfl

lemma literal_chars {cs : List Char} {t : Bytes} (h : SpellsChars cs t) (rest : Bytes) :
    (literal (t ++ quote :: rest)).outcome = .ok (String.ofList cs, rest) := by
  simp [literal, outcome_check, content_chars h, Except.bind, text?_ofChars]

/-! ### Passing over a literal -/

namespace Skip

lemma literal_plains {bs : Bytes} (h : ∀ b ∈ bs, IsPlain b) (s : Bytes) :
    (literal (bs ++ s)).outcome = (literal s).outcome := by
  induction bs with
  | nil => rfl
  | cons b bs ih =>
    obtain ⟨hq, hb, hc⟩ := h b (by simp)
    rw [List.cons_append, literal.eq_def]
    simp only [hq, hb, hc, if_false, outcome_widen]
    exact ih fun c hc => h c (by simp [hc])

lemma literal_unit {q : Bytes} {n : ℕ} (h : HexQuad q n) (s : Bytes) :
    (literal (backslash :: 0x75 :: (q ++ s))).outcome = (literal s).outcome := by
  obtain ⟨_, hs⟩ := outcome_andThen (f := fun _ t _ => literal t) (hexEscape_quad h s)
  have hu : (simpleEscape? 0x75).isSome = false := rfl
  rw [literal]
  simp only [show backslash ≠ quote by decide, hu, if_false, if_true, outcome_widen,
    Bool.false_eq_true]
  exact hs

lemma literal_char {c : Char} {b : Bytes} (h : SpellsChar c b) (s : Bytes) :
    (literal (b ++ s)).outcome = (literal s).outcome := by
  cases h with
  | plain hq hb hc => exact literal_plains (fun b hm => isPlain_of_mem hq hb hc hm) s
  | short h =>
    rw [List.cons_append, List.cons_append, literal]
    simp [show backslash ≠ quote by decide, h]
  | unit h => exact literal_unit h s
  | pair hq hr _ _ =>
    rw [List.cons_append, List.cons_append, List.append_assoc, literal_unit hq]
    exact literal_unit hr s

lemma literal_chars {cs : List Char} {t : Bytes} (h : SpellsChars cs t) (rest : Bytes) :
    (literal (t ++ quote :: rest)).outcome = .ok ((), rest) := by
  induction h with
  | nil =>
    rw [List.nil_append, literal.eq_def]
    rfl
  | cons hc _ ih => rw [List.append_assoc, literal_char hc, ih]

end Skip

end Highlight.Json
