import Highlight.Proofs.Json.Skip

/-! Reading a grammar: its own members are decoded as they come, and its rules from values read whole. -/

namespace Highlight.Json

open Result

variable {α β : Type}

def textOf : Value → Except (List Step) String
  | .text s => .ok s
  | _ => .error []

def arrayOf (f : Value → Except (List Step) α) : Value → Except (List Step) (List α)
  | .array vs => itemsOf f 0 vs
  | _ => .error []

def ruleOf (depth : ℕ) (v : Value) : Except (List Step) Rule :=
  (treeOf depth v).bind fun t =>
    match Rule.ofTree? t with
    | some r => .ok r
    | none => .error []

def fieldOf (key : String) (known : Option α) (f : Value → Except (List Step) α)
    (put : α → Grammar.Fields) (v : Value) : Except (List Step) Grammar.Fields :=
  match known with
  | some _ => .error []
  | none => ((f v).mapError (.key key :: ·)).map put

def memberOf (f : Grammar.Fields) (key : String) (v : Value) : Except (List Step) Grammar.Fields :=
  if key = "name" then fieldOf key f.name textOf ({ f with name := some · }) v
  else if key = "scopeName" then fieldOf key f.scopeName textOf ({ f with scopeName := some · }) v
  else if key = "fileTypes" then
    fieldOf key f.fileTypes (arrayOf textOf) ({ f with fileTypes := some · }) v
  else if key = "patterns" then
    fieldOf key f.patterns (arrayOf (ruleOf (depthLimit - 2))) ({ f with patterns := some · }) v
  else .ok f

def grammarOf : Value → Except (List Step) Grammar
  | .object ms => (membersOf memberOf {} ms).bind fun f => f.grammar.mapError fun _ => []
  | _ => .error []

lemma path_mismatch {v : Value} {b rest : Bytes} (hb : Spells v b) (hr : Ends rest)
    (expected : String) : (mismatch expected (b ++ rest)).path = [] := by
  have hscalar {x : Scalar} (hx : v.scalar? = some x) :
      (mismatch expected (b ++ rest)).path = [] := by
    have hs := scalar_outcome hx hb hr
    obtain ⟨c, t, rfl, _, ha, ho⟩ := hb.head_scalar hx
    rw [List.cons_append] at hs ⊢
    simp only [mismatch, ha, ho, if_false]
    split
    · rfl
    · next e he => simp [he] at hs
  cases v with
  | array | object =>
    obtain ⟨_, t, rfl, rfl⟩ := hb.begins
    rfl
  | null | boolean | number | text => exact hscalar rfl

lemma outcome_mismatch (expected : String) {r : Reader α} {v : Value}
    (h : ∀ c t, v.Begins c → (r (c :: t)).outcome = .error (mismatch expected (c :: t)).path)
    {w b rest : Bytes} (hw : Blank w) (hb : Spells v b) (hr : Ends rest) :
    (r.afterSpace (w ++ (b ++ rest))).outcome = .error [] := by
  have hp := path_mismatch hb hr expected
  obtain ⟨c, t, rfl, hc⟩ := hb.begins
  rw [List.cons_append] at hp ⊢
  rw [outcome_afterSpace _ hw hc.startsValue.1, h c _ hc, hp]

lemma outcome_opened {first : UInt8} (hf : isSpace first = false) (expected : String) (r : Reader α)
    {w : Bytes} (hw : Blank w) (t : Bytes) :
    (opened first expected r (w ++ first :: t)).outcome = (r t).outcome := by
  rw [opened, outcome_afterSpace _ hw hf]
  simp only [if_true, outcome_widen]

lemma outcome_opened_other {first : UInt8} (expected : String) (r : Reader α) {v : Value} {w b rest : Bytes}
    (hw : Blank w) (hb : Spells v b) (hr : Ends rest) (hn : ∀ c, v.Begins c → c ≠ first) :
    (opened first expected r (w ++ (b ++ rest))).outcome = .error [] := by
  have hp := path_mismatch hb hr expected
  obtain ⟨c, t, rfl, hc⟩ := hb.begins
  rw [List.cons_append] at hp ⊢
  rw [opened, outcome_afterSpace _ hw hc.startsValue.1]
  simp only [if_neg (hn c hc), outcome_error, hp]

lemma text_spelled {s : String} {w b : Bytes} (hw : Blank w) (hb : SpellsText s b) (rest : Bytes) :
    (text (w ++ (b ++ rest))).outcome = .ok (s, rest) := by
  obtain ⟨t, ht, rfl⟩ := hb
  have hl := literal_chars ht rest
  rw [String.ofList_toList] at hl
  have hs : w ++ (quote :: (t ++ [quote]) ++ rest) = w ++ quote :: (t ++ quote :: rest) := by simp
  rw [hs, text, outcome_opened rfl _ _ hw, hl]

lemma text_decodes : text.Decodes textOf := by
  intro v w b rest hw hb hr
  cases v with
  | text s =>
    cases hb with
    | text hb => exact text_spelled hw hb rest
  | array | object => exact outcome_opened_other _ _ hw hb hr fun c (hc : c = _) => hc ▸ by decide
  | null | boolean | number => exact outcome_opened_other _ _ hw hb hr fun c hc => hc.2.2.2

lemma array_decodes {item : Reader α} {f : Value → Except (List Step) α} (hf : item.Decodes f) :
    (array item).Decodes (arrayOf f) := by
  intro v w b rest hw hb hr
  cases v with
  | array vs =>
    obtain ⟨t, ht, hi⟩ := items_array hf hb rest
    rw [ht, array, outcome_opened rfl _ _ hw, hi, arrayOf]
  | object | text => exact outcome_opened_other _ _ hw hb hr fun c (hc : c = _) => hc ▸ by decide
  | null | boolean | number => exact outcome_opened_other _ _ hw hb hr fun c hc => hc.2.1

lemma rule_decodes (depth : ℕ) : (rule depth).Decodes (ruleOf depth) := by
  intro v w b rest hw hb hr
  rw [rule, outcome_check, tree_decodes depth hw hb hr, ruleOf]
  cases treeOf depth v with
  | error p => rfl
  | ok t =>
    simp only [Except.map, Except.bind]
    cases Rule.ofTree? t <;> rfl

lemma fieldOf_outcome {value : Reader α} {f : Value → Except (List Step) α} (hf : value.Decodes f)
    (key : String) (known : Option α) (put : α → Grammar.Fields) {v : Value} {w w' b rest : Bytes}
    (hw : Blank w) (hw' : Blank w') (hb : Spells v b) (hr : Ends rest) :
    (Fields.field key known value put (w ++ colon :: (w' ++ (b ++ rest)))).outcome =
      (fieldOf key known f put v).map (·, rest) := by
  cases known with
  | some a => rfl
  | none =>
    rw [Fields.field, outcome_map, memberValue_outcome hf key hw hw' hb hr, fieldOf]
    cases f v <;> rfl

lemma decodesMembers_memberOf : DecodesMembers Fields.member memberOf := by
  intro f key v w w' b rest hw hw' hb hr
  unfold Fields.member memberOf
  split_ifs
  · exact fieldOf_outcome text_decodes key _ _ hw hw' hb hr
  · exact fieldOf_outcome text_decodes key _ _ hw hw' hb hr
  · exact fieldOf_outcome (array_decodes text_decodes) key _ _ hw hw' hb hr
  · exact fieldOf_outcome (array_decodes (rule_decodes _)) key _ _ hw hw' hb hr
  · rw [outcome_map, memberValue_outcome skip_decodes key hw hw' hb hr]
    rfl

lemma grammar_outcome {v : Value} (hv : ∀ vs, v ≠ .array vs) {w b rest : Bytes} (hw : Blank w)
    (hb : Spells v b) (hr : Ends rest) :
    (grammar (w ++ (b ++ rest))).outcome = (grammarOf v).map (·, rest) := by
  have hother (hn : ∀ c, v.Begins c → c ≠ openBracket ∧ c ≠ openBrace) :
      (grammar (w ++ (b ++ rest))).outcome = .error [] := by
    refine outcome_mismatch "struct Grammar" (fun c t hc => ?_) hw hb hr
    simp only [if_neg (hn c hc).1, if_neg (hn c hc).2, outcome_error]
  cases v with
  | array vs => exact (hv vs rfl).elim
  | object ms =>
    obtain ⟨t, ht, hm⟩ := members_object decodesMembers_memberOf hb {} rest
    rw [ht, grammar, outcome_afterSpace _ hw (show isSpace openBrace = false by rfl)]
    simp only [show openBrace ≠ openBracket by decide, if_false, if_true, outcome_widen, outcome_check,
      hm, grammarOf]
    cases membersOf memberOf {} ms with
    | error p => rfl
    | ok f =>
      simp only [Except.map, Except.bind, Fields.grammar]
      cases f.grammar <;> rfl
  | text =>
    refine hother fun c hc => ?_
    obtain rfl := hc
    decide
  | null | boolean | number => exact hother fun c hc => ⟨hc.2.1, hc.2.2.1⟩

end Highlight.Json

namespace Highlight.Grammar

open Json

lemma ofJson_eq_ok_iff {v : Value} (hv : ∀ vs, v ≠ .array vs) {w b w' : Bytes} (hw : Blank w)
    (hb : Spells v b) (hw' : Blank w') (g : Grammar) :
    ofJson (w ++ (b ++ w')) = .ok g ↔ grammarOf v = .ok g := by
  have hnil : Ends [] := by simp [Ends]
  have hr : Ends w' := by simpa using Ends.blank_append hw' hnil
  have hg := grammar_outcome hv hw hb hr
  rw [ofJson]
  cases hj : Json.grammar (w ++ (b ++ w')) with
  | error e =>
    cases ho : grammarOf v with
    | error p => simp
    | ok g' => simp [hj, ho, Except.map] at hg
  | ok p =>
    cases ho : grammarOf v with
    | error p => simp [hj, ho, Except.map, Result.outcome] at hg
    | ok g' =>
      obtain ⟨hp, -⟩ : p.value = g' ∧ p.rest = w' := by
        simpa [hj, ho, Except.map, Result.outcome] using hg
      simp [hp]

end Highlight.Grammar
