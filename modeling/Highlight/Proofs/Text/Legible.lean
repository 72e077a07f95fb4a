import Highlight.Proofs.Text.Encoding

/-! Bytes that spell text. A character begins with a byte that none goes on with, so that bytes are cut into
characters in one way at most. -/

namespace Highlight.Bytes

open String

abbrev StartsChar (b : UInt8) : Prop := b.IsUTF8FirstByte

lemma exists_utf8EncodeChar (c : Char) :
    ∃ b bs, utf8EncodeChar c = b :: bs ∧ StartsChar b ∧ ∀ d ∈ bs, ¬ StartsChar d := by
  have hfirst {i : ℕ} (h : i < (utf8EncodeChar c).length) : StartsChar (utf8EncodeChar c)[i] ↔ i = 0 :=
    UInt8.isUTF8FirstByte_getElem_utf8EncodeChar
  have hne : utf8EncodeChar c ≠ [] := utf8EncodeChar_ne_nil
  generalize utf8EncodeChar c = e at *
  cases e with
  | nil => exact (hne rfl).elim
  | cons b bs =>
    refine ⟨b, bs, rfl, (hfirst (Nat.succ_pos _)).mpr rfl, fun d hd => ?_⟩
    obtain ⟨i, hi, rfl⟩ := List.getElem_of_mem hd
    exact fun h => Nat.succ_ne_zero i ((hfirst (Nat.succ_lt_succ hi)).mp h)

lemma utf8EncodeChar_append_inj {c d : Char} {s t : Bytes} (h : utf8EncodeChar c ++ s = utf8EncodeChar d ++ t) :
    c = d ∧ s = t := by
  have hc : c = d := by
    have hdecode (c : Char) (s : Bytes) :
        (utf8EncodeChar c ++ s).toByteArray.utf8DecodeChar? 0 = some c := by
      rw [List.toByteArray_append]
      exact ByteArray.utf8DecodeChar?_utf8EncodeChar_append
    exact Option.some.inj (by rw [← hdecode c s, h, hdecode d t])
  subst hc
  exact ⟨rfl, List.append_cancel_left h⟩

def Legible (c : Bytes) : Prop := (text? c).isSome = true

instance : DecidablePred Legible := fun c => inferInstanceAs (Decidable ((text? c).isSome = true))

lemma legible_ofChars (cs : List Char) : Legible (ofChars cs) := by
  rw [Legible, text?_ofChars]
  rfl

lemma eq_ofChars_of_text? {c : Bytes} {t : String} (h : text? c = some t) : c = ofChars t.toList := by
  rw [text?, fromUTF8?] at h
  split at h
  · obtain rfl := Option.some.inj h
    rw [← ofString_ofList, ofList_toList, ofString]
    rfl
  · cases h

lemma legible_iff {c : Bytes} : Legible c ↔ ∃ cs, c = ofChars cs := by
  refine ⟨fun h => ?_, ?_⟩
  · obtain ⟨t, ht⟩ := Option.isSome_iff_exists.mp h
    exact ⟨t.toList, eq_ofChars_of_text? ht⟩
  · rintro ⟨cs, rfl⟩
    exact legible_ofChars cs

@[simp] lemma legible_nil : Legible [] := legible_ofChars []

lemma Legible.append {c d : Bytes} (hc : Legible c) (hd : Legible d) : Legible (c ++ d) := by
  obtain ⟨cs, rfl⟩ := legible_iff.mp hc
  obtain ⟨ds, rfl⟩ := legible_iff.mp hd
  rw [← ofChars_append]
  exact legible_ofChars _

lemma legible_ascii {c : Bytes} (h : ∀ b ∈ c, b.toNat < 0x80) : Legible c := by
  have hc : c = ofChars (c.map Char.ofUInt8) := by
    have hb (b : UInt8) : UInt8.ofNat (Char.ofUInt8 b).toNat = b := UInt8.ofNat_toNat
    rw [ofChars_ascii (List.forall_mem_map.mpr h), List.map_map]
    exact (List.map_id'' hb c).symm
  rw [hc]
  exact legible_ofChars _

lemma Legible.cons {b : UInt8} {c : Bytes} (hb : b.toNat < 0x80) (hc : Legible c) : Legible (b :: c) :=
  Legible.append (legible_ascii (c := [b]) (by simpa using hb)) hc

end Highlight.Bytes
