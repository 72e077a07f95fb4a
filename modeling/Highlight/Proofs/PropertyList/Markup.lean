import Highlight.PropertyList.Markup
import Highlight.Proofs.Text.Encoding

/-! The pieces of an XML text: runs of characters, and tags whose names are words of small letters. -/

namespace Highlight.PropertyList.Markup

lemma piece_text {b : UInt8} {r : Bytes} (hp : ∀ c ∈ b :: r, endsText c = false) {e : UInt8}
    (he : endsText e = true) (t : Bytes) :
    ∃ h, piece b (r ++ e :: t) = .ok ⟨.text (b :: r), e :: t, h⟩ := by
  have hb : b ≠ 0x3c ∧ b ≠ 0x26 := by simpa [endsText] using hp b (by simp)
  have hr : ∀ c ∈ r, (!endsText c) = true := fun c hc => by simp [hp c (by simp [hc])]
  have hn : (!endsText e) = false := by simp [he]
  have htake : (r ++ e :: t).takeWhile (!endsText ·) = r := by
    rw [List.takeWhile_append_of_pos hr, List.takeWhile_cons, hn]
    simp
  have hdrop : (r ++ e :: t).dropWhile (!endsText ·) = e :: t := by
    rw [List.dropWhile_append_of_pos hr, List.dropWhile_cons, hn]
    simp
  have hl : (e :: t).length ≤ (r ++ e :: t).length := by
    rw [List.length_append]
    exact Nat.le_add_left _ _
  refine ⟨Nat.lt_succ_of_le hl, ?_⟩
  simp only [piece, hb, if_false, htake, hdrop]

/-! ### Tags -/

def IsName (n : Bytes) : Prop := n ≠ [] ∧ ∀ b ∈ n, 0x61 ≤ b ∧ b ≤ 0x7a

instance : DecidablePred IsName := fun n => inferInstanceAs (Decidable (n ≠ [] ∧ _))

lemma ne_of_letter {b : UInt8} (h : 0x61 ≤ b ∧ b ≤ 0x7a) {c : UInt8} (hc : c < 0x61) : b ≠ c := by
  rintro rfl
  exact absurd (UInt8.lt_of_le_of_lt h.1 hc) (UInt8.lt_irrefl _)

lemma isSpace_letter {b : UInt8} (h : 0x61 ≤ b ∧ b ≤ 0x7a) : isSpace b = false := by
  have h20 : b ≠ 0x20 := ne_of_letter h (by decide)
  have h09 : b ≠ 0x09 := ne_of_letter h (by decide)
  have h0a : b ≠ 0x0a := ne_of_letter h (by decide)
  have h0d : b ≠ 0x0d := ne_of_letter h (by decide)
  simp [isSpace, h20, h09, h0a, h0d]

lemma tag?_append {inside : Bytes} (h : ∀ b ∈ inside, b ≠ 0x3e ∧ b ≠ 0x22 ∧ b ≠ 0x27) (t : Bytes) :
    tag? none (inside ++ 0x3e :: t) = some (inside, t) := by
  induction inside with
  | nil => rfl
  | cons b inside ih =>
    obtain ⟨hgt, hq, ha⟩ := h b (by simp)
    rw [List.cons_append, tag?]
    simp only [hgt, hq, ha, and_false, or_self, if_false, ih fun c hc => h c (by simp [hc])]
    rfl

lemma piece_markup {s r : Bytes} {p : Piece} (h : ∃ hr, markup s = .ok ⟨p, r, hr⟩) :
    ∃ hr, piece 0x3c s = .ok ⟨p, r, hr⟩ := by
  obtain ⟨hr, hm⟩ := h
  exact ⟨Nat.lt_succ_of_lt hr, by simp [piece, hm, Except.map]⟩

lemma markup_opening {b : UInt8} {s inside r : Bytes} (hb : b ≠ 0x21 ∧ b ≠ 0x3f ∧ b ≠ 0x2f)
    (h : tag? none (b :: s) = some (inside, r)) :
    ∃ hr, markup (b :: s) = .ok ⟨openingOf inside, r, hr⟩ := by
  refine ⟨length_tag? h, ?_⟩
  simp only [markup, hb, if_false]
  split
  · next i u hi =>
    obtain ⟨rfl, rfl⟩ : i = inside ∧ u = r := by simpa [h] using hi.symm
    rfl
  · next hn => simp [h] at hn

lemma markup_closing {s inside r : Bytes} (h : tag? none s = some (inside, r)) :
    ∃ hr, markup (0x2f :: s) = .ok ⟨.closing (closingName inside), r, hr⟩ := by
  refine ⟨Nat.lt_succ_of_lt (length_tag? h), ?_⟩
  simp only [markup, show (0x2f : UInt8) ≠ 0x21 by decide, show (0x2f : UInt8) ≠ 0x3f by decide,
    if_false, if_true]
  split
  · next i u hi =>
    obtain ⟨rfl, rfl⟩ : i = inside ∧ u = r := by simpa [h] using hi.symm
    rfl
  · next hn => simp [h] at hn

section Names

variable {n : Bytes} (hn : IsName n)

include hn

lemma inside_name : ∀ b ∈ n, b ≠ 0x3e ∧ b ≠ 0x22 ∧ b ≠ 0x27 := by
  intro b hb
  have h := hn.2 b hb
  exact ⟨ne_of_letter h (by decide), ne_of_letter h (by decide), ne_of_letter h (by decide)⟩

lemma exists_cons_name : ∃ b m, n = b :: m ∧ b ≠ 0x21 ∧ b ≠ 0x3f ∧ b ≠ 0x2f := by
  obtain ⟨b, m, rfl⟩ := List.exists_cons_of_ne_nil hn.1
  have h := hn.2 b (by simp)
  exact ⟨b, m, rfl, ne_of_letter h (by decide), ne_of_letter h (by decide), ne_of_letter h (by decide)⟩

lemma tagName_name : tagName n = n := by
  have hs : ∀ b ∈ n, (!isSpace b) = true := fun b hb => by simp [isSpace_letter (hn.2 b hb)]
  have ht : (n ++ []).takeWhile (!isSpace ·) = n ++ [].takeWhile (!isSpace ·) :=
    List.takeWhile_append_of_pos hs
  simpa [tagName] using ht

lemma openingOf_name : openingOf n = .opening n false := by
  have hl : n.getLast? ≠ some 0x2f := fun h =>
    ne_of_letter (hn.2 _ (List.mem_of_getLast? h)) (show 0x2f < 0x61 by decide) rfl
  rw [openingOf, if_neg hl, tagName_name hn]

lemma openingOf_empty : openingOf (n ++ [0x2f]) = .opening n true := by
  simp [openingOf, tagName_name hn]

lemma closingName_name : closingName n = n := by
  have hr : n.reverse.dropWhile isSpace = n.reverse := by
    cases h : n.reverse with
    | nil => rfl
    | cons b m =>
      have hb : b ∈ n := List.mem_reverse.mp (by simp [h])
      rw [List.dropWhile_cons, isSpace_letter (hn.2 b hb)]
      rfl
  simp [closingName, hr]

lemma piece_opening (t : Bytes) :
    ∃ h, piece 0x3c (n ++ 0x3e :: t) = .ok ⟨.opening n false, t, h⟩ := by
  have ht := tag?_append (inside_name hn) t
  have ho := openingOf_name hn
  obtain ⟨b, m, rfl, hb⟩ := exists_cons_name hn
  rw [← ho]
  exact piece_markup (markup_opening hb ht)

lemma piece_empty (t : Bytes) :
    ∃ h, piece 0x3c (n ++ 0x2f :: 0x3e :: t) = .ok ⟨.opening n true, t, h⟩ := by
  have hi : ∀ b ∈ n ++ [0x2f], b ≠ 0x3e ∧ b ≠ 0x22 ∧ b ≠ 0x27 := by
    intro b hb
    rcases List.mem_append.mp hb with hb | hb
    · exact inside_name hn b hb
    · rw [List.mem_singleton.mp hb]
      decide
  have ht := tag?_append hi t
  have ho := openingOf_empty hn
  obtain ⟨b, m, rfl, hb⟩ := exists_cons_name hn
  rw [← ho]
  rw [List.append_assoc] at ht
  exact piece_markup (markup_opening hb ht)

lemma piece_closing (t : Bytes) :
    ∃ h, piece 0x3c (0x2f :: (n ++ 0x3e :: t)) = .ok ⟨.closing n, t, h⟩ := by
  have hm := markup_closing (tag?_append (inside_name hn) t)
  rw [closingName_name hn] at hm
  exact piece_markup hm

end Names

end Highlight.PropertyList.Markup
