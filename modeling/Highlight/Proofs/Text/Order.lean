import Highlight.Proofs.Text.Encoding

/-! The order of texts is that of their bytes. -/

namespace Highlight.Bytes

open String

lemma cons_lt_cons {m n : ℕ} (hm : m < 0x100) (hn : n < 0x100) (s t : Bytes) :
    UInt8.ofNat m :: s < UInt8.ofNat n :: t ↔ m < n ∨ m = n ∧ s < t := by
  rw [List.cons_lt_cons_iff, UInt8.lt_iff_toNat_lt, ← UInt8.toNat_inj, UInt8.toNat_ofNat_of_lt' hm,
    UInt8.toNat_ofNat_of_lt' hn]

/-- The bytes of two characters differ before either comes to its end. -/
lemma utf8EncodeChar_lt {c d : Char} (h : c < d) (s t : Bytes) :
    utf8EncodeChar c ++ s < utf8EncodeChar d ++ t := by
  have hlt : c.val.toNat < d.val.toNat := h
  have hd : d.val.toNat < 0x110000 := by
    rcases d.valid with hd | hd <;> omega
  have hdiv (n : ℕ) : n / 4096 = n / 64 / 64 ∧ n / 262144 = n / 64 / 64 / 64 := by omega
  -- A character with more bytes has a greater first byte; among those with equally many the digits in
  -- base 64 decide.
  simp only [utf8EncodeChar, hdiv]
  split_ifs <;>
    simp (disch := omega) only [List.cons_append, List.nil_append, cons_lt_cons] <;>
    omega

lemma ofChars_lt {cs ds : List Char} (h : cs < ds) : ofChars cs < ofChars ds := by
  induction cs generalizing ds with
  | nil =>
    cases ds with
    | nil => exact absurd h (List.lt_irrefl _)
    | cons d ds =>
      obtain ⟨b, bs, hd⟩ := List.exists_cons_of_ne_nil (utf8EncodeChar_ne_nil (c := d))
      rw [ofChars_nil, ofChars_cons, hd]
      exact List.nil_lt_cons _ _
  | cons c cs ih =>
    cases ds with
    | nil => exact absurd h (List.not_lt_nil _)
    | cons d ds =>
      rw [ofChars_cons, ofChars_cons]
      rcases List.cons_lt_cons_iff.mp h with hlt | ⟨rfl, hlt⟩
      · exact utf8EncodeChar_lt hlt _ _
      · exact List.append_left_lt (ih hlt)

lemma ofString_lt {s t : String} (h : s < t) : ofString s < ofString t := by
  rw [← ofList_toList (s := s), ← ofList_toList (s := t), ofString_ofList, ofString_ofList]
  exact ofChars_lt h

end Highlight.Bytes
