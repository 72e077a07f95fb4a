import Highlight.Noze
import Highlight.Proofs.Pattern.Longest

/-! Names: a letter, and behind it letters, digits and hyphens. -/

namespace Highlight.Noze

open Pattern

def isNameChar (c : Char) : Bool := c.isAlphanum || c == '-'

structure Name (first : Char → Bool) where
  letter : Char
  isFirst : first letter
  more : Stretch isNameChar

namespace Name

variable {first : Char → Bool}

def text (n : Name first) : List Char := n.letter :: n.more.text

lemma isNameChar_of_mem (h : ∀ c, first c → isNameChar c) (n : Name first) : ∀ c ∈ n.text, isNameChar c := by
  rintro c (_ | ⟨_, hc⟩)
  · exact h _ n.isFirst
  · exact n.more.all c hc

lemma length_text (n : Name first) : n.text.length = n.more.text.length + 1 := rfl

lemma first_of_append {n : Name first} {v w : List Char} {c : Char} (h : n.text ++ v = c :: w) : first c := by
  obtain ⟨rfl, -⟩ := List.cons.inj h
  exact n.isFirst

lemma isNameChar_of_lt {l v : List Char} {c : Char} {n n' : Name first} (h : n.text <+: l) (h' : n'.text ++ c :: v <+: l)
    (hlt : n'.text.length < n.text.length) : isNameChar c := by
  have hconcat : n'.text ++ [c] <+: n.text := concat_prefix_of_lt h h' hlt
  obtain ⟨-, hmore⟩ := List.cons_prefix_cons.mp hconcat
  apply n.more.all
  exact hmore.subset (by simp)

end Name

def nameSet : CharSet := .union (.range 0x61 0x7a) (.union (.range 0x41 0x5a) (.union (.range 0x30 0x39) (.code 0x2d)))

def nameNode (first : CharSet) : Node := .sequence (.one first) (.loop .star {} (.one nameSet))

lemma isUpper_iff {c : Char} : c.isUpper ↔ 0x41 ≤ c.toNat ∧ c.toNat ≤ 0x5a := decide_eq_true_iff

lemma isLower_iff {c : Char} : c.isLower ↔ 0x61 ≤ c.toNat ∧ c.toNat ≤ 0x7a :=
  Bool.and_eq_true_iff.trans (and_congr decide_eq_true_iff decide_eq_true_iff)

lemma isAlpha_eq (c : Char) : c.isAlpha = (c.isUpper || c.isLower) := rfl

lemma contains_upper : (CharSet.range 0x41 0x5a).contains = Char.isUpper := by
  funext c
  rw [Bool.eq_iff_iff, isUpper_iff]
  simp [CharSet.contains]

lemma contains_lower : (CharSet.range 0x61 0x7a).contains = Char.isLower := rfl

lemma contains_digit : (CharSet.range 0x30 0x39).contains = Char.isDigit := rfl

lemma contains_hyphen : (CharSet.code 0x2d).contains = (· == '-') := CharSet.contains_single '-'

lemma contains_nameSet : nameSet.contains = isNameChar := by
  have hunion (s t : CharSet) (c : Char) : (CharSet.union s t).contains c = (s.contains c || t.contains c) := rfl
  funext c
  rw [nameSet, hunion, hunion, hunion, contains_lower, contains_upper, contains_digit, contains_hyphen, isNameChar,
    Char.isAlphanum, isAlpha_eq]
  ac_rfl

/-! ### Kinds of characters -/

section

variable {c : Char}

lemma isNameChar_of_isLower (h : c.isLower) : isNameChar c := by
  simp [isNameChar, Char.isAlphanum, isAlpha_eq, h]

lemma isNameChar_of_isUpper (h : c.isUpper) : isNameChar c := by
  simp [isNameChar, Char.isAlphanum, isAlpha_eq, h]

lemma toNat_of_isNameChar (h : isNameChar c) : 0x2d ≤ c.toNat ∧ c.toNat ≤ 0x7a := by
  rw [← contains_nameSet] at h
  simp only [nameSet, CharSet.code, CharSet.contains, Bool.or_eq_true, Bool.and_eq_true, decide_eq_true_eq] at h
  omega

lemma isAscii_of_isNameChar (h : isNameChar c) : Unicode.isAscii c := by
  have hle := (toNat_of_isNameChar h).2
  exact decide_eq_true (by omega)

lemma isAscii_of_isAlpha (h : c.isAlpha) : Unicode.isAscii c := by
  apply isAscii_of_isNameChar
  simp [isNameChar, Char.isAlphanum, h]

lemma not_isDigit_of_isAlpha (h : c.isAlpha) : Unicode.isDigit c = false := by
  rw [Unicode.isDigit, if_pos (isAscii_of_isAlpha h), Bool.eq_false_iff]
  intro hdigit
  have hnine : c.toNat ≤ 57 := (Char.isDigit_iff_toNat.mp hdigit).2
  rw [isAlpha_eq, Bool.or_eq_true, isUpper_iff, isLower_iff] at h
  omega

lemma isWord_of_isAlpha (h : c.isAlpha) : Unicode.isWord c := by
  simp [Unicode.isWord, Unicode.isAlphabetic, isAscii_of_isAlpha h, h]

lemma isWord_of_isDigit (h : Unicode.isDigit c) : Unicode.isWord c := by
  simp [Unicode.isWord, h]

lemma isWord_of_isNameChar (h : isNameChar c) : Unicode.isWord c = (c != '-') := by
  by_cases hc : c = '-'
  · subst hc
    decide
  rw [bne_iff_ne.mpr hc]
  have halnum : c.isAlphanum := (Bool.or_eq_true_iff.mp h).resolve_right (by simpa using hc)
  rcases Bool.or_eq_true_iff.mp halnum with halpha | hdigit
  · exact isWord_of_isAlpha halpha
  · apply isWord_of_isDigit
    rwa [Unicode.isDigit, if_pos (isAscii_of_isNameChar h)]

lemma isAlpha_of_isLower (h : c.isLower) : c.isAlpha := by
  simp [isAlpha_eq, h]

lemma isAlpha_of_isUpper (h : c.isUpper) : c.isAlpha := by
  simp [isAlpha_eq, h]

lemma not_isLower_of_isUpper (h : c.isUpper) : c.isLower = false := by
  rw [Bool.eq_false_iff]
  intro hlower
  have hlast := (isUpper_iff.mp h).2
  have hfirst := (isLower_iff.mp hlower).1
  omega

lemma toNat_of_isSpace (h : Unicode.isSpace c) : c.toNat ≤ 0x20 ∨ 0x80 ≤ c.toNat := by
  by_contra hc
  have hascii : Unicode.isAscii c = true := decide_eq_true (by omega)
  rw [Unicode.isSpace, if_pos hascii] at h
  simp only [Bool.or_eq_true, Bool.and_eq_true, decide_eq_true_eq, beq_iff_eq, Char.le_def, UInt32.le_iff_toNat_le] at h
  rcases h with rfl | ⟨-, h⟩
  · exact hc (.inl (by decide))
  · exact hc (.inl (h.trans (by decide)))

lemma not_isSpace_of_isNameChar (h : isNameChar c) : Unicode.isSpace c = false := by
  rw [Bool.eq_false_iff]
  intro hspace
  have := toNat_of_isNameChar h
  have := toNat_of_isSpace hspace
  omega

lemma not_isNameChar_of_isSpace (h : Unicode.isSpace c) : isNameChar c = false := by
  rw [Bool.eq_false_iff]
  intro hname
  rw [not_isSpace_of_isNameChar hname] at h
  cases h

end

section

variable (call : ℕ → Matcher) (origin : List Char)

lemma reads_nameChars : ((Node.loop .star {} (.one nameSet)).matcher call origin).Reads
    (fun w : Stretch isNameChar => w.text) fun w s => s.advance w.text.length := by
  rw [← contains_nameSet]
  exact .star _

lemma reads_nameNode {set : CharSet} {first : Char → Bool} (h : set.contains = first) :
    ((nameNode set).matcher call origin).Reads Name.text fun (n : Name first) s => s.advance n.text.length := by
  subst h
  have hseq := (Matcher.Reads.one set.contains).seq_of_length_eq (reads_nameChars call origin) fun _ _ => rfl
  refine hseq.of_surjective (g := fun n : Name set.contains => (⟨n.letter, n.isFirst⟩, n.more)) ?_ ?_ ?_
  · rintro ⟨⟨c, hc⟩, w⟩
    exact ⟨⟨c, hc, w⟩, rfl⟩
  · intro n
    rfl
  · intro n
    funext s
    rw [State.advance_advance, Name.length_text, Nat.add_comm]

end

/-! ### Where characters of one kind end -/

def runEnd (p : Char → Bool) (text : List Char) (n : ℕ) : ℕ := n + ((text.drop n).takeWhile p).length

section

variable {p : Char → Bool} {w w' r r' : List Char} (hw : ∀ c ∈ w, p c) (hr : ∀ {c v}, r = c :: v → p c = false)

include hw hr

lemma takeWhile_append : (w ++ r).takeWhile p = w := by
  rw [List.takeWhile_append_of_pos hw]
  cases r with
  | nil => simp
  | cons c r =>
    rw [List.takeWhile_cons, hr rfl]
    simp

lemma runEnd_eq {text : List Char} {n : ℕ} (h : text.drop n = w ++ r) : runEnd p text n = n + w.length := by
  rw [runEnd, h, takeWhile_append hw hr]

lemma append_inj_of_all (hw' : ∀ c ∈ w', p c) (hr' : ∀ {c v}, r' = c :: v → p c = false) (h : w ++ r = w' ++ r') :
    w = w' ∧ r = r' := by
  obtain rfl : w = w' := by rw [← takeWhile_append hw hr, h, takeWhile_append hw' hr']
  exact ⟨rfl, List.append_cancel_left h⟩

end

lemma drop_of_append {text u v : List Char} {n : ℕ} (h : text.drop n = u ++ v) : text.drop (n + u.length) = v := by
  rw [← List.drop_drop, h, List.drop_left]

end Highlight.Noze
