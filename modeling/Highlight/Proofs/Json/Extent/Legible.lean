import Highlight.Proofs.Json.Extent.Grammar

/-! The readers that make something of what they take: it is text, from its first byte to its last. -/

namespace Highlight.Json

open Bytes Number

variable {α β : Type}

/-! ### What is spelled -/

lemma HexQuad.legible {q : Bytes} {n : ℕ} (h : HexQuad q n) : Legible q := by
  obtain ⟨a, b, c, d, a', b', c', d', rfl, ha, hb, hc, hd, -⟩ := h
  exact .cons (bounds_of_hexByte? ha).2 (.cons (bounds_of_hexByte? hb).2 (.cons (bounds_of_hexByte? hc).2
    (.cons (bounds_of_hexByte? hd).2 legible_nil)))

lemma ascii_of_simpleEscape? {b x : UInt8} (h : simpleEscape? b = some x) : b.toNat < 0x80 := by
  unfold simpleEscape? at h
  split at h
  all_goals first | decide | cases h

lemma SpellsChar.legible {c : Char} {b : Bytes} (h : SpellsChar c b) : Legible b := by
  have hunit {q r : Bytes} {n : ℕ} (hq : HexQuad q n) (hr : Legible r) :
      Legible (backslash :: 0x75 :: (q ++ r)) := .cons (by decide) (.cons (by decide) (hq.legible.append hr))
  cases h with
  | plain => simpa using legible_ofChars [c]
  | short h => exact .cons (by decide) (.cons (ascii_of_simpleEscape? h) legible_nil)
  | unit hq => simpa using hunit hq legible_nil
  | pair hq hr _ _ => simpa using hunit hq (hunit hr legible_nil)

lemma SpellsText.legible {t : String} {b : Bytes} (h : SpellsText t b) : Legible b := by
  obtain ⟨w, hw, rfl⟩ := h
  have hin : Legible w := by
    generalize t.toList = cs at hw
    induction hw with
    | nil => exact legible_nil
    | cons hc _ ih => exact hc.legible.append ih
  exact .cons (by decide) (hin.append (by decide))

lemma Separates.legible {v : Bytes} (h : Separates v) : Legible v := by
  refine legible_ascii fun b hb => ?_
  rcases h b hb with hs | rfl | rfl
  · simp only [isSpace, Bool.or_eq_true, beq_iff_eq] at hs
    rcases hs with ((rfl | rfl) | rfl) | rfl <;> decide
  · decide
  · decide

lemma Single.legible {c : Bytes} (h : Single c) : Legible c := by
  cases h with
  | word h => exact legible_ascii fun d hd => (bare_word h d hd).2
  | number h => exact legible_ascii fun d hd => (h d hd).bare_ascii.2
  | text h => exact h.legible

/-! ### What is taken -/

def Reader.Checks (r : Reader α) : Prop := r.Takes fun _ c => Legible c

lemma legible_after (v : Bytes) (_ : α) (c : Bytes) (hv : Separates v) (hc : Legible c) : Legible (v ++ c) :=
  hv.legible.append hc

lemma items_legible {item : Reader α} (h : item.Checks) (i : ℕ) : Reader.Ends (items item i) fun _ c => Legible c :=
  items_ends h (fun w hw => hw.separates.legible.append (by decide))
    (fun v a c as d hv hc hd => hv.legible.append (hc.append hd)) i

lemma members_legible {member : β → String → Reader β} (h : ∀ state key, (member state key).Checks) (state : β)
    (first : Bool) : Reader.Ends (members member state first) fun _ c => Legible c :=
  members_ends (W := fun _ _ c => Legible c) h (fun state w hw => hw.separates.legible.append (by decide))
    (fun v key k state c state₁ d state' hv hk hc hd => hv.legible.append (hk.legible.append (hc.append hd))) state first

lemma tree_checks (n : ℕ) : (tree n).Checks := by
  have hnone {value : Reader Tree} {p : Prop} (h : value ∈ none) : p := absurd h.symm (Option.some_ne_none value)
  have hafter (w : Bytes) (t : Tree) (c : Bytes) (hw : Blank w) (hc : Legible c) : Legible (w ++ c) :=
    hw.separates.legible.append hc
  have hsingle (x : Scalar) (c : Bytes) (hc : Single c) : Legible c := hc.legible
  induction n with
  | zero => exact treeWith_takes hafter hsingle (fun value hv => hnone hv) fun value hv => hnone hv
  | succ n ih =>
    refine treeWith_takes hafter hsingle (fun value hv => ?_) fun value hv => ?_
    · obtain rfl := Option.some.inj hv
      exact fun s => (items_legible ih 0 s).imp fun _ c hc => .cons (by decide) hc
    · obtain rfl := Option.some.inj hv
      have hentry (ms : List (Tree × Tree)) (key : String) : (entry (tree n) ms key).Checks := fun s =>
        (memberValue_takes ih legible_after key s).map fun _ c hc => hc
      exact fun s => (members_legible hentry [] true s).imp fun _ c hc => .cons (by decide) hc

lemma rule_checks (n : ℕ) : (rule n).Checks := by
  intro s
  refine (tree_checks n s).check (fun t u v r h => ?_) fun t c u r hc h => hc
  split at h
  · exact h
  · cases h

lemma text_checks : text.Checks := by
  intro s
  refine (text_takes s).imp ?_
  rintro t _ ⟨w, b, hw, hb, rfl⟩
  exact hw.separates.legible.append hb.legible

lemma array_checks {item : Reader α} (h : item.Checks) : (array item).Checks := by
  intro s
  refine (array_takes (items_legible h 0) s).imp ?_
  rintro as _ ⟨w, c, hw, hc, rfl⟩
  exact hw.separates.legible.append (.cons (by decide) hc)

lemma fileTypes_checks : fileTypes.Checks := array_checks text_checks

lemma patterns_checks : patterns.Checks := array_checks (rule_checks (depthLimit - 2))

lemma member_checks (f : Grammar.Fields) {key : String} (hkey : key ∈ Grammar.Fields.names) :
    (Fields.member f key).Checks := by
  unfold Fields.member
  split_ifs with h₁ h₂ h₃ h₄
  · exact field_takes text_checks legible_after key _ fun _ c hc => hc
  · exact field_takes text_checks legible_after key _ fun _ c hc => hc
  · exact field_takes fileTypes_checks legible_after key _ fun _ c hc => hc
  · exact field_takes patterns_checks legible_after key _ fun _ c hc => hc
  · simp [Grammar.Fields.names, h₁, h₂, h₃, h₄] at hkey

lemma grammarItems_legible : grammarItems.Ends fun _ c => Legible c := by
  intro s
  have htext (i : ℕ) := requiredItem_takes text_checks legible_after i
  have happend {α : Type} (_ : α) (c : Bytes) (_ : Grammar) (d : Bytes) (hc : Legible c) (hd : Legible d) :
      Legible (c ++ d) := hc.append hd
  refine (htext 0 s).andThen (Q := fun _ _ d => Legible d) (fun name s _ => ?_) happend
  refine (htext 1 s).andThen (Q := fun _ _ d => Legible d) (fun scopeName s _ => ?_) happend
  refine (requiredItem_takes fileTypes_checks legible_after 2 s).andThen (Q := fun _ _ d => Legible d)
    (fun fileTypes s _ => ?_) happend
  refine (requiredItem_takes patterns_checks legible_after 3 s).andThen (Q := fun _ _ d => Legible d)
    (fun patterns s _ => ?_) happend
  refine (endArray_ends ⟨name, scopeName, fileTypes, patterns⟩ s).imp ?_
  rintro g _ ⟨-, w, hw, rfl⟩
  exact hw.separates.legible.append (by decide)

end Highlight.Json
