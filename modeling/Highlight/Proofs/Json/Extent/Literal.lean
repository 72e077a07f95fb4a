import Highlight.Proofs.Json.Extent
import Highlight.Proofs.Json.Literal
import Highlight.Proofs.Text.Legible

/-! What is taken for a literal spells the text that is read. Its bytes are checked only after its escapes are
replaced, but a character that an escape stands for never goes on with the bytes around it. -/

namespace Highlight.Json

open Result Bytes

/-! ### Escapes by number -/

lemma hexEscape_ends : hexEscape.Ends fun n c => HexQuad c n := by
  intro s n rest h
  unfold hexEscape at h
  split at h
  · next a b c d rest' =>
    split at h
    · next a' b' c' d' ha hb hc hd =>
      obtain ⟨rfl, rfl⟩ := Prod.mk.inj (Except.ok.inj h)
      have hq : HexQuad [a, b, c, d] (Digits.ofDigits 16 [a', b', c', d']) :=
        ⟨a, b, c, d, a', b', c', d', rfl, ha, hb, hc, hd, by simp [Digits.ofDigits]⟩
      exact ⟨[a, b, c, d], rfl, hq, fun rest' _ => hexEscape_quad hq rest'⟩
    · cases h
  · cases h

lemma toNat_ofNat {n : ℕ} (h : n.isValidChar) : (Char.ofNat n).toNat = n := by
  rw [Char.ofNat, dif_pos h]
  rfl

lemma bounds_of_hexByte? {b : UInt8} {n : ℕ} (h : hexByte? b = some n) : n < 16 ∧ b.toNat < 0x80 := by
  have hb : (Char.ofNat b.toNat).toNat = b.toNat :=
    toNat_ofNat (.inl (Nat.lt_trans b.toNat_lt (by decide)))
  have hle {c d : Char} (hcd : c ≤ d) : c.toNat ≤ d.toNat := hcd
  rw [hexByte?, Digits.hexValue?, hb] at h
  split_ifs at h with h₁ h₂ h₃ <;> obtain rfl := Option.some.inj h
  · have h9 : _ ≤ 57 := hle h₁.2
    have h0 : '0'.toNat = 48 := rfl
    omega
  · have hf : _ ≤ 102 := hle h₂.2
    have ha : 'a'.toNat = 97 := rfl
    omega
  · have hf : _ ≤ 70 := hle h₃.2
    have ha : 'A'.toNat = 65 := rfl
    omega

lemma HexQuad.lt {q : Bytes} {n : ℕ} (h : HexQuad q n) : n < 0x10000 := by
  obtain ⟨a, b, c, d, a', b', c', d', -, ha, hb, hc, hd, rfl⟩ := h
  have ha' := (bounds_of_hexByte? ha).1
  have hb' := (bounds_of_hexByte? hb).1
  have hc' := (bounds_of_hexByte? hc).1
  have hd' := (bounds_of_hexByte? hd).1
  omega

lemma isValidChar_unit {n : ℕ} (h : n < 0x10000) (ht : ¬ isTrailingSurrogate n = true)
    (hl : ¬ isLeadingSurrogate n = true) : n.isValidChar := by
  simp only [isTrailingSurrogate, isLeadingSurrogate, Bool.and_eq_true, decide_eq_true_eq] at ht hl
  simp only [Nat.isValidChar]
  omega

lemma trailingSurrogate_spells {high : ℕ} {s bytes rest : Bytes}
    (h : (trailingSurrogate high s).outcome = .ok (bytes, rest)) :
    ∃ r low, HexQuad r low ∧ isTrailingSurrogate low = true ∧ bytes = utf8 (surrogatePair high low) ∧
      s = backslash :: 0x75 :: (r ++ rest) := by
  unfold trailingSurrogate at h
  split at h
  · cases h
  · cases h
  · next b u t =>
    split at h
    · cases h
    · next hb =>
      split at h
      · cases h
      · next hu =>
        obtain rfl : b = backslash := not_not.mp hb
        obtain rfl : u = 0x75 := not_not.mp hu
        rw [outcome_widen, outcome_check] at h
        cases hx : (hexEscape t).outcome with
        | error p => simp [hx, Except.bind] at h
        | ok q =>
          obtain ⟨low, v⟩ := q
          obtain ⟨r, rfl, hr, -⟩ := hexEscape_ends t low v hx
          simp only [hx, Except.bind] at h
          by_cases hl : isTrailingSurrogate low = true
          · obtain ⟨rfl, rfl⟩ : utf8 (surrogatePair high low) = bytes ∧ v = rest := by simpa [hl] using h
            exact ⟨r, low, hr, hl, rfl, rfl⟩
          · simp [hl] at h

lemma unicodeEscape_of_hexEscape {s t : Bytes} {n : ℕ} (h : (hexEscape s).outcome = .ok (n, t)) :
    (unicodeEscape s).outcome =
      if isTrailingSurrogate n then .error []
      else if isLeadingSurrogate n then (trailingSurrogate n t).outcome
      else .ok (utf8 n, t) := by
  rw [unicodeEscape]
  split
  · next e he => simp [he] at h
  · next p hp =>
    obtain ⟨rfl, rfl⟩ : p.value = n ∧ p.rest = t := by simpa [hp, outcome] using h
    split_ifs
    · rfl
    · rw [outcome_widen]
    · rfl

lemma unicodeEscape_spells {s bytes rest : Bytes} (h : (unicodeEscape s).outcome = .ok (bytes, rest)) :
    ∃ c e, SpellsChar c (backslash :: 0x75 :: e) ∧ bytes = String.utf8EncodeChar c ∧ s = e ++ rest := by
  cases hx : (hexEscape s).outcome with
  | error p =>
    rw [unicodeEscape] at h
    split at h
    · cases h
    · next q hq => simp [hq, outcome] at hx
  | ok q =>
    obtain ⟨n, t⟩ := q
    obtain ⟨q, rfl, hq, -⟩ := hexEscape_ends s n t hx
    rw [unicodeEscape_of_hexEscape hx] at h
    split_ifs at h with ht hl
    · obtain ⟨r, low, hr, hlow, hbytes, rfl⟩ := trailingSurrogate_spells h
      exact ⟨_, _, .pair hq hr hl hlow, hbytes, by simp⟩
    · obtain ⟨rfl, rfl⟩ := Prod.mk.inj (Except.ok.inj h)
      have hunit : HexQuad q (Char.ofNat n).toNat := by rwa [toNat_ofNat (isValidChar_unit hq.lt ht hl)]
      exact ⟨Char.ofNat n, q, .unit hunit, rfl, rfl⟩

lemma escapeSequence_spells {s bytes rest : Bytes} (h : (escapeSequence s).outcome = .ok (bytes, rest)) :
    ∃ c e, SpellsChar c (backslash :: e) ∧ bytes = String.utf8EncodeChar c ∧ s = e ++ rest := by
  cases s with
  | nil => cases h
  | cons b s =>
    cases hx : simpleEscape? b with
    | some x =>
      obtain ⟨rfl, rfl⟩ : [x] = bytes ∧ s = rest := by simpa [escapeSequence, hx] using h
      exact ⟨_, [b], .short hx, (utf8EncodeChar_of_simpleEscape? hx).symm, rfl⟩
    | none =>
      by_cases hb : b = 0x75
      · subst hb
        obtain ⟨c, e, hc, hbytes, rfl⟩ := unicodeEscape_spells (s := s) (by simpa [escapeSequence, hx] using h)
        exact ⟨c, 0x75 :: e, hc, hbytes, rfl⟩
      · simp [escapeSequence, hx, hb] at h

/-! ### The content of a literal -/

inductive Unescapes : Bytes → Bytes → Prop
  | nil : Unescapes [] []
  | plain {b : UInt8} {bytes w : Bytes} : IsPlain b → Unescapes bytes w → Unescapes (b :: bytes) (b :: w)
  | escape {c : Char} {e bytes w : Bytes} : SpellsChar c (backslash :: e) → Unescapes bytes w →
      Unescapes (String.utf8EncodeChar c ++ bytes) (backslash :: (e ++ w))

lemma content_unescapes {s bytes rest : Bytes} (h : (content s).outcome = .ok (bytes, rest)) :
    ∃ w, Unescapes bytes w ∧ s = w ++ quote :: rest := by
  induction hn : s.length using Nat.strong_induction_on generalizing s bytes with
  | _ n ih =>
    subst hn
    cases s with
    | nil =>
      rw [content] at h
      cases h
    | cons b s =>
      by_cases hq : b = quote
      · subst hq
        rw [content_quote] at h
        obtain ⟨rfl, rfl⟩ := Prod.mk.inj (Except.ok.inj h)
        exact ⟨[], .nil, rfl⟩
      by_cases hb : b = backslash
      · subst hb
        cases hx : (escapeSequence s).outcome with
        | error p =>
          rw [content] at h
          simp only [hq, if_false, if_true, outcome_widen] at h
          rw [outcome_andThen_error hx] at h
          cases h
        | ok q =>
          obtain ⟨x, t⟩ := q
          have hlt := length_of_outcome hx
          obtain ⟨c, e, hc, rfl, rfl⟩ := escapeSequence_spells hx
          rw [content_escape hx] at h
          cases ht : (content t).outcome with
          | error p =>
            rw [ht] at h
            cases h
          | ok p =>
            obtain ⟨bytes', rest'⟩ := p
            rw [ht] at h
            obtain ⟨rfl, rfl⟩ := Prod.mk.inj (Except.ok.inj h)
            obtain ⟨w, hw, rfl⟩ := ih t.length (Nat.lt_succ_of_lt hlt) ht rfl
            exact ⟨backslash :: (e ++ w), .escape hc hw, by simp⟩
      by_cases hc : b < 0x20
      · rw [content] at h
        simp [hq, hb, hc] at h
      · rw [content_plain ⟨hq, hb, hc⟩] at h
        cases ht : (content s).outcome with
        | error p =>
          rw [ht] at h
          cases h
        | ok p =>
          obtain ⟨bytes', rest'⟩ := p
          rw [ht] at h
          obtain ⟨rfl, rfl⟩ := Prod.mk.inj (Except.ok.inj h)
          obtain ⟨w, hw, rfl⟩ := ih s.length (Nat.lt_succ_self _) ht rfl
          exact ⟨b :: w, .plain ⟨hq, hb, hc⟩ hw, rfl⟩

lemma Unescapes.plains {bs bytes w : Bytes} (hbs : ∀ b ∈ bs, ¬ StartsChar b) (h : Unescapes (bs ++ bytes) w) :
    ∃ w', w = bs ++ w' ∧ (∀ b ∈ bs, IsPlain b) ∧ Unescapes bytes w' := by
  induction bs generalizing w with
  | nil => exact ⟨w, rfl, by simp, h⟩
  | cons b bs ih =>
    rw [List.cons_append] at h
    generalize hs : b :: (bs ++ bytes) = s at h
    cases h with
    | nil => cases hs
    | plain hb h =>
      obtain ⟨rfl, rfl⟩ := List.cons.inj hs
      obtain ⟨w', rfl, hplain, hw'⟩ := ih (fun d hd => hbs d (by simp [hd])) h
      exact ⟨w', rfl, by simpa [hb] using hplain, hw'⟩
    | @escape c e t w hc h =>
      obtain ⟨d, ds, hcd, hd, -⟩ := exists_utf8EncodeChar c
      rw [hcd] at hs
      exact (hbs b (by simp) ((List.cons.inj hs).1 ▸ hd)).elim

lemma spellsChar_plain {c : Char} (h : ∀ b ∈ String.utf8EncodeChar c, IsPlain b) :
    SpellsChar c (String.utf8EncodeChar c) := by
  have hascii (hc : c.toNat < 0x80) : IsPlain (UInt8.ofNat c.toNat) := by
    rw [utf8EncodeChar_ascii hc] at h
    exact h _ (by simp)
  refine .plain ?_ ?_ ?_
  · rintro rfl
    exact (hascii (by decide)).1 rfl
  · rintro rfl
    exact (hascii (by decide)).2.1 rfl
  · by_contra hc
    have hlt : c.toNat < 0x20 := Nat.lt_of_not_le hc
    have hc' : c.toNat < 0x80 := Nat.lt_trans hlt (by decide)
    refine (hascii hc').2.2 (UInt8.lt_iff_toNat_lt.mpr ?_)
    rwa [toNat_ofNat_of_ascii hc']

lemma Unescapes.spellsChars {cs : List Char} {w : Bytes} (h : Unescapes (ofChars cs) w) : SpellsChars cs w := by
  induction cs generalizing w with
  | nil =>
    generalize hs : ofChars [] = s at h
    cases h with
    | nil => exact .nil
    | plain => cases hs
    | escape => exact (String.utf8EncodeChar_ne_nil (List.append_eq_nil_iff.mp hs.symm).1).elim
  | cons c cs ih =>
    rw [ofChars_cons] at h
    generalize hs : String.utf8EncodeChar c ++ ofChars cs = s at h
    cases h with
    | nil => exact (String.utf8EncodeChar_ne_nil (List.append_eq_nil_iff.mp hs).1).elim
    | plain hb h =>
      obtain ⟨d, ds, hcd, -, hds⟩ := exists_utf8EncodeChar c
      rw [hcd] at hs
      obtain ⟨rfl, rfl⟩ := List.cons.inj hs
      -- The bytes that this character goes on with begin no character, so no escape stands for them.
      obtain ⟨w', rfl, hplain, hw'⟩ := h.plains hds
      rw [← List.cons_append, ← hcd]
      refine .cons (spellsChar_plain ?_) (ih hw')
      rw [hcd]
      simpa [hb] using hplain
    | escape hc h =>
      obtain ⟨rfl, rfl⟩ := utf8EncodeChar_append_inj hs
      rw [← List.cons_append]
      exact .cons hc (ih h)

lemma literal_ends : literal.Ends fun t c => SpellsText t (quote :: c) := by
  intro s t rest h
  cases hx : (content s).outcome with
  | error p => simp [literal, outcome_check, hx, Except.bind] at h
  | ok q =>
    obtain ⟨bytes, u⟩ := q
    obtain ⟨ht, rfl⟩ : text? bytes = some t ∧ u = rest := by
      simp only [literal, outcome_check, hx, Except.bind] at h
      cases ht : text? bytes with
      | none => simp [ht] at h
      | some t' => simpa [ht] using h
    obtain ⟨w, hw, rfl⟩ := content_unescapes hx
    rw [eq_ofChars_of_text? ht] at hw
    refine ⟨w ++ [quote], by simp, ⟨w, hw.spellsChars, rfl⟩, fun rest' _ => ?_⟩
    have hl := literal_chars hw.spellsChars rest'
    rw [String.ofList_toList] at hl
    rw [List.append_assoc]
    exact hl

/-! ### What is spelled -/

lemma hexByte?_plain {b : UInt8} {n : ℕ} (h : hexByte? b = some n) : b ≠ quote ∧ b ≠ backslash := by
  refine ⟨?_, ?_⟩
  · rintro rfl
    cases h
  · rintro rfl
    cases h

lemma HexQuad.runs {q : Bytes} {n : ℕ} (h : HexQuad q n) : Runs .inside .inside q := by
  obtain ⟨a, b, c, d, a', b', c', d', rfl, ha, hb, hc, hd, -⟩ := h
  refine .of_forall fun x hx => ?_
  have hp : x ≠ quote ∧ x ≠ backslash := by
    simp only [List.mem_cons, List.not_mem_nil, or_false] at hx
    rcases hx with rfl | rfl | rfl | rfl
    · exact hexByte?_plain ha
    · exact hexByte?_plain hb
    · exact hexByte?_plain hc
    · exact hexByte?_plain hd
  exact runs_inside hp.1 hp.2

lemma SpellsChar.runs {c : Char} {b : Bytes} (h : SpellsChar c b) : Runs .inside .inside b := by
  have hunit {q r : Bytes} {n : ℕ} (hq : HexQuad q n) (hr : Runs .inside .inside r) :
      Runs .inside .inside (backslash :: 0x75 :: (q ++ r)) :=
    runs_backslash.cons ((runs_escaped _).cons (hq.runs.append hr))
  cases h with
  | plain hq hb hc =>
    refine .of_forall fun b hm => ?_
    have hp := isPlain_of_mem hq hb hc hm
    exact runs_inside hp.1 hp.2.1
  | short h => exact runs_backslash.cons (runs_escaped _)
  | unit h => simpa using hunit h (.nil _)
  | pair hq hr _ _ => simpa using hunit hq (hunit hr (.nil _))

lemma SpellsText.runs {t : String} {b : Bytes} (h : SpellsText t b) : Runs .outside .outside b := by
  obtain ⟨w, hw, rfl⟩ := h
  have hin : Runs .inside .inside w := by
    generalize t.toList = cs at hw
    induction hw with
    | nil => exact .nil _
    | cons hc _ ih => exact hc.runs.append ih
  exact runs_opening.cons (hin.append runs_closing)

end Highlight.Json
