import Highlight.Failure
import Highlight.Proofs.Json.Decoding
import Highlight.Proofs.Json.Printer

/-! A grammar printed as JSON is read back unless its brackets nest too deeply for the reader. -/

namespace Highlight

open Document Json

namespace Json

lemma ruleOf_toDocument {depth : ℕ} {r : Rule} (h : r.toDocument.value.depth ≤ depth) :
    ruleOf depth r.toDocument.value = .ok r := by
  rw [ruleOf, treeOf_of_depth_le h, tree_value, Except.bind, Rule.ofTree?_toDocument]

lemma itemsOf_toDocuments {depth : ℕ} {rs : List Rule}
    (h : Value.itemsDepth (values (Rule.toDocuments rs)) ≤ depth) (i : ℕ) :
    itemsOf (ruleOf depth) i (values (Rule.toDocuments rs)) = .ok rs := by
  induction rs generalizing i with
  | nil => rfl
  | cons r rs ih =>
    simp only [Rule.toDocuments, values, Value.itemsDepth] at h
    have hr : r.toDocument.value.depth ≤ depth := Nat.le_trans (Nat.le_max_left _ _) h
    have hrs : Value.itemsDepth (values (Rule.toDocuments rs)) ≤ depth :=
      Nat.le_trans (Nat.le_max_right _ _) h
    rw [Rule.toDocuments, values, itemsOf, ruleOf_toDocument hr, ih hrs]
    rfl

lemma itemsOf_texts (ts : List String) (i : ℕ) :
    itemsOf textOf i (values (ts.map .text)) = .ok ts := by
  induction ts generalizing i with
  | nil => rfl
  | cons t ts ih =>
    rw [List.map_cons, values, value, itemsOf, ih]
    rfl

lemma itemsDepth_texts (ts : List String) : Value.itemsDepth (values (ts.map .text)) = 0 := by
  induction ts with
  | nil => rfl
  | cons t ts ih =>
    simp only [List.map_cons, values, value, Value.itemsDepth, Value.depth, ih]
    rfl

end Json

namespace Grammar

lemma depth_toDocument (g : Grammar) :
    g.toDocument.value.depth = Value.itemsDepth (values (Rule.toDocuments g.patterns)) + 2 := by
  simp only [toDocument, value, memberValues, Value.depth, Value.membersDepth, itemsDepth_texts]
  omega

lemma grammarOf_toDocument (g : Grammar) :
    grammarOf g.toDocument.value =
      ((itemsOf (ruleOf (depthLimit - 2)) 0 (values (Rule.toDocuments g.patterns))).mapError
        (.key "patterns" :: ·)).map fun rs => { g with patterns := rs } := by
  have hf : arrayOf textOf (.array (values (g.fileTypes.map .text))) = .ok g.fileTypes :=
    itemsOf_texts g.fileTypes 0
  have hp : arrayOf (ruleOf (depthLimit - 2)) (.array (values (Rule.toDocuments g.patterns))) =
      itemsOf (ruleOf (depthLimit - 2)) 0 (values (Rule.toDocuments g.patterns)) := rfl
  simp only [toDocument, value, memberValues, grammarOf, membersOf, memberOf, fieldOf, textOf, hf, hp,
    if_true, show "scopeName" ≠ "name" by decide, show "fileTypes" ≠ "name" by decide,
    show "fileTypes" ≠ "scopeName" by decide, show "patterns" ≠ "name" by decide,
    show "patterns" ≠ "scopeName" by decide, show "patterns" ≠ "fileTypes" by decide, if_false,
    Except.bind, Except.map, Except.mapError]
  cases itemsOf (ruleOf (depthLimit - 2)) 0 (values (Rule.toDocuments g.patterns)) <;> rfl

lemma ofJson_toBytes (g h : Grammar) :
    ofJson (g.toBytes .json) = .ok h ↔ grammarOf g.toDocument.value = .ok h := by
  have hb : g.toBytes .json = [] ++ (Bytes.ofChars (indented 0 g.toDocument) ++ []) := by
    simp [toBytes, text, Bytes.ofString_ofList]
  rw [hb]
  exact ofJson_eq_ok_iff (by simp [toDocument, value]) .nil (spells_indented _ 0) .nil h

lemma ofJson_of_depth_le {g : Grammar} (h : g.toDocument.value.depth ≤ depthLimit) :
    ofJson (g.toBytes .json) = .ok g := by
  rw [depth_toDocument] at h
  rw [ofJson_toBytes, grammarOf_toDocument, itemsOf_toDocuments (Nat.le_sub_of_add_le h)]
  rfl

lemma ofJson_of_lt_depth {g : Grammar} (h : depthLimit < g.toDocument.value.depth) :
    ∃ fault, ofJson (g.toBytes .json) = .error fault := by
  rw [depth_toDocument] at h
  -- The braces of the grammar and the brackets of its rules are open around every rule.
  have hl : depthLimit = 127 := rfl
  have hi : depthLimit - 2 < Value.itemsDepth (values (Rule.toDocuments g.patterns)) := by omega
  obtain ⟨v, hv, hd⟩ := exists_depth_items hi
  obtain ⟨q, hq⟩ := treeOf_of_lt_depth hd
  have hr : ∃ p, ruleOf (depthLimit - 2) v = .error p := ⟨q, by rw [ruleOf, hq]; rfl⟩
  obtain ⟨p, hp⟩ := itemsOf_error hv hr 0
  cases ho : ofJson (g.toBytes .json) with
  | error fault => exact ⟨fault, rfl⟩
  | ok g' =>
    rw [ofJson_toBytes, grammarOf_toDocument, hp] at ho
    cases ho

/-- A grammar is read back from the JSON it is printed as if and only if no more than 127 brackets and
braces are open at once in it, and from any deeper text no grammar is read. -/
theorem ofBytes_toBytes_json (g : Grammar) :
    (ofBytes .json (g.toBytes .json) = .ok g ↔ deepest (g.text .json) ≤ 127) ∧
      ((∃ fault, ofBytes .json (g.toBytes .json) = .error (.json fault (g.toBytes .json))) ↔
        127 < deepest (g.text .json)) := by
  have hd : deepest (g.text .json) = g.toDocument.value.depth := deepest_indented _ 0
  rw [hd]
  by_cases h : g.toDocument.value.depth ≤ 127
  · have hg : ofBytes .json (g.toBytes .json) = .ok g := by
      rw [ofBytes, ofJson_of_depth_le h]
      rfl
    simp [hg, h]
  · obtain ⟨fault, hf⟩ := ofJson_of_lt_depth (Nat.lt_of_not_le h)
    have hg : ofBytes .json (g.toBytes .json) = .error (.json fault (g.toBytes .json)) := by
      rw [ofBytes, hf]
      rfl
    simp [hg, h, Nat.lt_of_not_le h]

end Grammar

end Highlight
