import Highlight.Text.Bytes
import Mathlib.Tactic.Common
import Mathlib.Data.List.Basic

/-! The bytes of characters one after the other. Only characters below U+0080 have bytes below 0x80. -/

namespace Highlight.Bytes

def ofChars (cs : List Char) : Bytes := cs.flatMap String.utf8EncodeChar

@[simp] lemma ofChars_nil : ofChars [] = [] := rfl

@[simp] lemma ofChars_cons (c : Char) (cs : List Char) :
    ofChars (c :: cs) = String.utf8EncodeChar c ++ ofChars cs := rfl

@[simp] lemma ofChars_append (cs ds : List Char) :
    ofChars (cs ++ ds) = ofChars cs ++ ofChars ds := by
  simp [ofChars]

lemma ofString_ofList (cs : List Char) : ofString (String.ofList cs) = ofChars cs := by
  simp [ofString, ofChars, List.utf8Encode, List.data_toByteArray]

lemma text?_ofChars (cs : List Char) : text? (ofChars cs) = some (String.ofList cs) := by
  rw [← ofString_ofList, text?_ofString]

lemma utf8EncodeChar_ascii {c : Char} (h : c.toNat < 0x80) :
    String.utf8EncodeChar c = [UInt8.ofNat c.toNat] := by
  have hc : c.val.toNat ≤ 127 := Nat.le_of_lt_succ h
  simp only [String.utf8EncodeChar, hc, if_true]
  rfl

lemma toNat_ofNat_of_ascii {c : Char} (h : c.toNat < 0x80) : (UInt8.ofNat c.toNat).toNat = c.toNat :=
  UInt8.toNat_ofNat_of_lt' (Nat.lt_trans h (by decide))

lemma ofChars_ascii {cs : List Char} (h : ∀ c ∈ cs, c.toNat < 0x80) :
    ofChars cs = cs.map fun c => UInt8.ofNat c.toNat := by
  induction cs with
  | nil => rfl
  | cons c cs ih =>
    rw [ofChars_cons, utf8EncodeChar_ascii (h c (by simp)), ih fun d hd => h d (by simp [hd])]
    rfl

def IsHigh (b : UInt8) : Prop := 0x80 ≤ b.toNat

lemma isHigh_ofNat {n : ℕ} (h : 0x80 ≤ n) (hn : n < 0x100) : IsHigh (UInt8.ofNat n) := by
  rwa [IsHigh, UInt8.toNat_ofNat_of_lt' hn]

lemma isHigh_of_mem {c : Char} (h : 0x80 ≤ c.toNat) {b : UInt8} (hb : b ∈ String.utf8EncodeChar c) :
    IsHigh b := by
  have hc : ¬ c.val.toNat ≤ 127 := Nat.not_le_of_lt h
  simp only [String.utf8EncodeChar, hc, if_false] at hb
  split at hb
  · simp only [List.mem_cons, List.not_mem_nil, or_false] at hb
    rcases hb with rfl | rfl <;> exact isHigh_ofNat (by omega) (by omega)
  · split at hb
    · simp only [List.mem_cons, List.not_mem_nil, or_false] at hb
      rcases hb with rfl | rfl | rfl <;> exact isHigh_ofNat (by omega) (by omega)
    · simp only [List.mem_cons, List.not_mem_nil, or_false] at hb
      rcases hb with rfl | rfl | rfl | rfl <;> exact isHigh_ofNat (by omega) (by omega)

lemma le_of_mem_utf8EncodeChar {n : ℕ} (hn : n ≤ 0x80) {c : Char} (hc : n ≤ c.toNat) {b : UInt8}
    (h : b ∈ String.utf8EncodeChar c) : n ≤ b.toNat := by
  by_cases hlt : c.toNat < 0x80
  · rw [utf8EncodeChar_ascii hlt, List.mem_singleton] at h
    rw [h, toNat_ofNat_of_ascii hlt]
    exact hc
  · exact Nat.le_trans hn (isHigh_of_mem (Nat.le_of_not_lt hlt) h)

lemma eq_of_mem_utf8EncodeChar {c d : Char} (hd : d.toNat < 0x80)
    (h : UInt8.ofNat d.toNat ∈ String.utf8EncodeChar c) : c = d := by
  have hdn := toNat_ofNat_of_ascii hd
  by_cases hc : c.toNat < 0x80
  · rw [utf8EncodeChar_ascii hc, List.mem_singleton] at h
    rw [← Char.toNat_inj, ← toNat_ofNat_of_ascii hc, ← h, hdn]
  · have hb : 0x80 ≤ (UInt8.ofNat d.toNat).toNat := isHigh_of_mem (Nat.le_of_not_lt hc) h
    omega

end Highlight.Bytes
