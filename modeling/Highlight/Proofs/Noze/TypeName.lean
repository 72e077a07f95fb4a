import Highlight.Proofs.Noze.Name
import Highlight.Proofs.Pattern.Successive

/-! What the rule for types matches: the longest name that begins with a capital, and a mark before it. -/

namespace Highlight.Noze

open Pattern

inductive TypeMark
  | question
  | dollar

def TypeMark.char : TypeMark → Char
  | .question => '?'
  | .dollar => '$'

structure TypeName where
  mark : Option TypeMark
  name : Name Char.isUpper

namespace TypeName

def text (t : TypeName) : List Char := (t.mark.map TypeMark.char).toList ++ t.name.text

def reach (t : TypeName) (s : State) : State :=
  (t.mark.elim s fun _ => State.capturing 1 (·.advance 1) s).advance t.name.text.length

lemma text_ne_nil (t : TypeName) : t.text ≠ [] := by
  simp [text, Name.text]

lemma unmarked_reach (t : TypeName) (input : List Char) (s : ℕ) :
    (t.reach (.place input s)).unmarked = .place input (s + t.text.length) := by
  obtain ⟨_ | k, n⟩ := t
  · simp [reach, text]
  · simp [reach, text, Nat.add_comm 1, Nat.add_assoc]

end TypeName

def markNode : Node := .capture 1 (.choice (.literal ['?']) (.literal ['$']))

def typePattern : Pattern :=
  ⟨.sequence (.loop ⟨0, some 1, true⟩ {} markNode) (nameNode (.range 0x41 0x5a)), 1, []⟩

lemma compile_typeName : compile "(\\?|\\$)?[A-Z][a-zA-Z0-9\\-]*".toList = .ok typePattern := by
  decide +kernel

lemma reads_markNode (call : ℕ → Matcher) (origin : List Char) : (markNode.matcher call origin).Reads
    (fun k : TypeMark => [k.char]) fun _ => State.capturing 1 (·.advance 1) := by
  have h := (Matcher.Reads.literal ['?']).or (Matcher.Reads.literal ['$']) fun l _ _ ha hb => by
    obtain ⟨v, rfl⟩ := ha
    simp at hb
  refine (h.capture 1).of_surjective (g := fun
    | .question => .inl ()
    | .dollar => .inr ()) ?_ ?_ ?_
  · rintro (_ | _)
    · exact ⟨.question, rfl⟩
    · exact ⟨.dollar, rfl⟩
  · rintro (_ | _) <;> rfl
  · rintro (_ | _) <;> rfl

lemma not_mark_of_name {l : List Char} {k : TypeMark} {n : Name Char.isUpper} (h : n.text <+: l) :
    ¬ [k.char] <+: l := by
  intro hk
  obtain ⟨r, rfl⟩ := h
  obtain ⟨hletter, -⟩ := List.cons_prefix_cons.mp hk
  have hupper := n.isFirst
  rw [← hletter] at hupper
  cases k <;> exact absurd hupper (by decide)

lemma reads_typePattern (origin : List Char) : (typePattern.matcher origin).Reads TypeName.text TypeName.reach := by
  have h (call) := (reads_markNode call origin).optional_seq (reads_nameNode call origin contains_upper) not_mark_of_name
  refine (h _).of_surjective (g := fun t => (t.mark, t.name)) ?_ ?_ ?_
  · rintro ⟨mark, name⟩
    exact ⟨⟨mark, name⟩, rfl⟩
  · rintro ⟨_ | _, name⟩ <;> rfl
  · rintro ⟨_ | _, name⟩ <;> rfl

lemma finds_typeName (text : List Char) : typePattern.Finds text fun s m =>
    ∃ t, IsLongest TypeName.text (text.drop s) t ∧ typePattern.found (.place text s) (t.reach (.place text s)) = m :=
  Matcher.Reads.finds reads_typePattern TypeName.text_ne_nil fun t s => t.unmarked_reach text s

lemma TypeName.not_isSpace_of_mem (t : TypeName) : ∀ c ∈ t.text, Unicode.isSpace c = false := by
  obtain ⟨mark, n⟩ := t
  intro c hc
  rcases List.mem_append.mp hc with hc | hc
  · obtain ⟨k, -, rfl⟩ : ∃ k, mark = some k ∧ k.char = c := by simpa using hc
    cases k <;> decide
  · exact not_isSpace_of_isNameChar (n.isNameChar_of_mem (fun _ => isNameChar_of_isUpper) c hc)

section

variable {text v : List Char} {c d : Char} {n : ℕ} {name : Name Char.isUpper}
  (hname : text.drop n = c :: (name.text ++ d :: v)) (hc : Unicode.isSpace c) (hd : Unicode.isSpace d)

include hname hc hd

lemma TypeName.between {t : TypeName} {s : ℕ} (ht : IsLongest TypeName.text (text.drop s) t) (hle : s ≤ n + 1)
    (hlt : n + 1 < s + t.text.length) : s = n + 1 ∧ t.text.length = name.text.length := by
  -- A match that begins before the name would hold the white space there.
  obtain rfl : s = n + 1 := by
    by_contra hne
    obtain ⟨k, rfl⟩ := Nat.exists_eq_add_of_le (show s ≤ n by omega)
    obtain ⟨r, hr⟩ := ht.1
    have hget : (t.text ++ r)[k]? = some c := by
      rw [hr, ← List.head?_drop, List.drop_drop, hname]
      rfl
    rw [List.getElem?_append_left (by omega)] at hget
    rw [t.not_isSpace_of_mem c (List.mem_of_getElem? hget)] at hc
    cases hc
  have hafter : text.drop (n + 1) = name.text ++ d :: v := drop_succ_of_cons hname
  rw [hafter] at ht
  obtain ⟨mark, name'⟩ := t
  obtain ⟨hpre, hmax⟩ := ht
  have hname : name.text <+: name.text ++ d :: v := List.prefix_append _ _
  cases mark with
  | some k => exact absurd ((List.prefix_append _ _).trans hpre) (not_mark_of_name (k := k) hname)
  | none =>
    have hge : name.text.length ≤ name'.text.length := hmax ⟨none, name⟩ hname
    have hle : name'.text.length ≤ name.text.length := by
      by_contra hlonger
      have hchar := Name.isNameChar_of_lt hpre (List.prefix_refl _) (Nat.lt_of_not_le hlonger)
      rw [not_isNameChar_of_isSpace hd] at hchar
      cases hchar
    exact ⟨rfl, Nat.le_antisymm hle hge⟩

end

end Highlight.Noze
