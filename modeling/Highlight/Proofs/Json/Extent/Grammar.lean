import Highlight.Proofs.Json.Extent.Skip
import Highlight.Proofs.Json.RoundTrip

/-! What is taken for a grammar. It ends with the bracket that closes the grammar, and at least as many
brackets are open at once in it as in the document of the grammar, of which 127 are allowed. -/

namespace Highlight

open Json

namespace Json

open Result

variable {α : Type}

lemma opened_takes {first : UInt8} {expected : String} {r : Reader α} {Q : α → Bytes → Prop} (h : r.Ends Q) :
    (opened first expected r).Takes fun a c => ∃ w d, Blank w ∧ Q a d ∧ c = w ++ first :: d := by
  intro s
  refine .afterSpace ?_ fun w t c hw ⟨w', d, hw', hd, hc⟩ => ⟨w ++ w', d, hw.append hw', hd, by simp [hc]⟩
  cases skipSpace s with
  | nil => exact .of_error (p := (mismatch expected []).path) rfl
  | cons b s =>
    by_cases hb : b = first
    · subst hb
      refine (h.takes s).cons (fun t => ?_) fun a c hc => ⟨[], c, .nil, hc, rfl⟩
      simp only [if_true, outcome_widen]
    · refine .of_error (p := (mismatch expected (b :: s)).path) ?_
      simp only [if_neg hb, outcome_error]

lemma text_takes : text.Takes fun t c => ∃ w d, Blank w ∧ SpellsText t (quote :: d) ∧ c = w ++ quote :: d :=
  opened_takes literal_ends

lemma array_takes {item : Reader α} {Q : List α → Bytes → Prop} (h : Reader.Ends (items item 0) Q) :
    (array item).Takes fun as c => ∃ w d, Blank w ∧ Q as d ∧ c = w ++ openBracket :: d :=
  opened_takes h

lemma text_nest : text.Takes fun _ c => Nests 0 c := by
  intro s
  refine (text_takes s).imp ?_
  rintro t _ ⟨w, b, hw, hb, rfl⟩
  exact .after hw.runs (Nests.of_runs hb.runs)

lemma array_nest {item : Reader α} {d : α → ℕ} {n : ℕ}
    (h : item.Takes fun a c => d a ≤ n ∧ Nests (d a) c) :
    (array item).Takes fun as c => ∃ k ≤ n, Nests (k + 1) c ∧ ∀ a ∈ as, d a ≤ k := by
  intro s
  refine (array_takes (items_nest h 0) s).imp ?_
  rintro as _ ⟨w, c, hw, ⟨k, hk, hc, has⟩, rfl⟩
  exact ⟨k, hk, .after hw.runs (Nests.of_opening (.inl rfl) hc), has⟩

lemma rule_takes (n : ℕ) : (rule n).Takes fun r c => r.depth ≤ n ∧ Nests r.depth c := by
  intro s
  refine (tree_takes n s).check (fun t u v r h => ?_) fun t c u r hc h => ?_
  · split at h
    · exact h
    · cases h
  · split at h
    · next r' hr =>
      obtain rfl := Except.ok.inj h
      have hd := Rule.depth_ofTree? hr
      exact ⟨Nat.le_trans hd hc.1, hc.2.mono hd⟩
    · cases h

lemma depths_le {rs : List Rule} {n : ℕ} (h : ∀ r ∈ rs, r.depth ≤ n) : Rule.depths rs ≤ n := by
  induction rs with
  | nil => exact Nat.zero_le n
  | cons r rs ih =>
    rw [Rule.depths_cons]
    exact Nat.max_le.mpr ⟨h r (by simp), ih fun r hr => h r (by simp [hr])⟩

lemma fileTypes_takes : fileTypes.Takes fun _ c => Nests 0 c := by
  intro s
  have ht : text.Takes fun _ c => 0 ≤ 0 ∧ Nests 0 c := fun s =>
    (text_nest s).imp fun _ c hc => ⟨Nat.le_refl 0, hc⟩
  refine (array_nest (d := fun _ => 0) ht s).imp fun _ c hc => ?_
  obtain ⟨k, -, hc, -⟩ := hc
  exact hc.mono (Nat.zero_le _)

lemma patterns_takes : patterns.Takes fun rs c =>
    Rule.depths rs + 1 < depthLimit ∧ Nests (Rule.depths rs + 1) c := by
  intro s
  refine (array_nest (rule_takes (depthLimit - 2)) s).imp fun rs c hc => ?_
  obtain ⟨k, hk, hc, hrs⟩ := hc
  have hd := depths_le hrs
  have hl : depthLimit = 127 := rfl
  exact ⟨by omega, hc.mono (by omega)⟩

/-! ### Members -/

def Fields.depth (f : Grammar.Fields) : ℕ := f.patterns.elim 0 fun rs => Rule.depths rs + 1

def Adds (f f' : Grammar.Fields) (c : Bytes) : Prop :=
  ∃ n ≤ depthLimit - 1, Nests n c ∧ Fields.depth f' ≤ max (Fields.depth f) n

lemma adds_of_eq {f f' : Grammar.Fields} {c : Bytes} (hc : Nests 0 c) (h : f'.patterns = f.patterns) :
    Adds f f' c := by
  refine ⟨0, Nat.zero_le _, hc, ?_⟩
  rw [Fields.depth, Fields.depth, h]
  exact Nat.le_max_left _ _

lemma field_takes {value : Reader α} {P : α → Bytes → Prop} (hv : value.Takes P)
    (hP : ∀ v a c, Separates v → P a c → P a (v ++ c)) (key : String) (known : Option α)
    {put : α → Grammar.Fields} {Q : Grammar.Fields → Bytes → Prop} (hput : ∀ a c, P a c → Q (put a) c) :
    (Fields.field key known value put).Takes Q := by
  intro s
  cases known with
  | some a => exact .of_error (p := []) rfl
  | none => exact (memberValue_takes hv hP key s).map hput

lemma nests_after {n : ℕ} (v : Bytes) (_ : α) (c : Bytes) (hv : Separates v) (hc : Nests n c) : Nests n (v ++ c) :=
  .after hv.runs hc

lemma member_takes (f : Grammar.Fields) (key : String) : (Fields.member f key).Takes (Adds f) := by
  unfold Fields.member
  split_ifs
  · exact field_takes text_nest nests_after key _ fun _ c hc => adds_of_eq hc rfl
  · exact field_takes text_nest nests_after key _ fun _ c hc => adds_of_eq hc rfl
  · exact field_takes fileTypes_takes nests_after key _ fun _ c hc => adds_of_eq hc rfl
  · refine field_takes patterns_takes (fun _ _ _ hv hc => ⟨hc.1, .after hv.runs hc.2⟩) key _ fun rs c hc => ?_
    exact ⟨Rule.depths rs + 1, Nat.le_sub_one_of_lt hc.1, hc.2, Nat.le_max_right _ _⟩
  · intro s
    exact (memberValue_takes skip_takes nests_after key s).map fun _ c hc => adds_of_eq hc rfl

/-! ### Grammars -/

def Holds (g : Grammar) (c : Bytes) : Prop :=
  g.toDocument.value.depth ≤ depthLimit ∧ Nests g.toDocument.value.depth c

lemma Holds.after {g : Grammar} {v c : Bytes} (hv : Runs .outside .outside v) (hc : Holds g c) :
    Holds g (v ++ c) := ⟨hc.1, .after hv hc.2⟩

lemma patterns_of_grammar {f : Grammar.Fields} {g : Grammar} (h : f.grammar = .ok g) :
    f.patterns = some g.patterns := by
  obtain ⟨name, scopeName, fileTypes, patterns⟩ := f
  unfold Grammar.Fields.grammar at h
  split at h
  · obtain rfl := Except.ok.inj h
    assumption
  all_goals cases h

lemma depth_of_fields {f : Grammar.Fields} {g : Grammar} (h : f.grammar = .ok g) :
    g.toDocument.value.depth = Fields.depth f + 1 := by
  rw [Grammar.depth_toDocument, Fields.depth, patterns_of_grammar h]
  rfl

lemma grammarMembers_ends : Reader.Ends
    (fun s => Result.check (members Fields.member {} true s) Fields.grammar)
    fun g c => Holds g (openBrace :: c) := by
  intro s
  refine Reader.TakesFrom.check (members_nest member_takes {} true s) (fun f u v g h => ?_)
    fun f c u g hc h => ?_
  · unfold Fields.grammar at *
    split at h
    · exact h
    · cases h
  · unfold Fields.grammar at h
    split at h
    · next g' hg =>
      obtain rfl := Except.ok.inj h
      obtain ⟨n, hn, hc, hf⟩ := hc
      have hd := depth_of_fields hg
      have hnil : Fields.depth {} = 0 := rfl
      have hl : depthLimit = 127 := rfl
      exact ⟨by omega, (Nests.of_opening (.inr rfl) hc).mono (by omega)⟩
    · cases h

lemma requiredItem_takes {item : Reader α} {P : α → Bytes → Prop} (h : item.Takes P)
    (hP : ∀ v a c, Separates v → P a c → P a (v ++ c)) (i : ℕ) : (requiredItem i item).Takes P := by
  intro s
  cases hn : nextItem i s with
  | error e =>
    refine .of_error (p := e.path) ?_
    rw [requiredItem, hn]
    rfl
  | ok next =>
    cases next with
    | closed rest hr =>
      refine .of_error (p := []) ?_
      rw [requiredItem, hn]
      rfl
    | part t ht =>
      obtain ⟨v, hv, rfl, hagain⟩ := separator_of_nextItem hn
      refine ((h t).within (.index i)).behind v (fun u hu => ?_) fun a c hc => hP v a c hv hc
      obtain ⟨_, hn'⟩ := hagain u hu
      rw [requiredItem, hn']
      simp only [outcome_widen]

lemma endArray_blank {w : Bytes} (hw : Blank w) (rest : Bytes) :
    ∃ h, endArray (w ++ closeBracket :: rest) = .ok ⟨rest, h⟩ := by
  obtain ⟨h, ha⟩ := ahead?_blank hw (show isSpace closeBracket = false by rfl) rest
  exact ⟨h, by simp [endArray, ha]⟩

lemma endArray_ends (g : Grammar) : Reader.Ends
    (fun s => (endArray s).map fun rest => (⟨g, rest.1, rest.2⟩ : Parsed Grammar s))
    fun g' c => g' = g ∧ ∃ w, Blank w ∧ c = w ++ [closeBracket] := by
  intro s
  cases he : endArray s with
  | error e =>
    refine .of_error (p := e.path) ?_
    rw [he]
    rfl
  | ok r =>
    obtain ⟨w, hw, hs⟩ : ∃ w, Blank w ∧ s = w ++ closeBracket :: r.1 := by
      rw [endArray] at he
      split at he
      · cases he
      · next b t ha =>
        obtain ⟨w, hw, -, hs⟩ := exists_of_ahead? ha
        split at he
        · next hb =>
          obtain rfl := Except.ok.inj he
          exact ⟨w, hw, hb ▸ hs⟩
        split at he <;> cases he
    rw [hs, List.append_cons]
    refine .of_ok (a := g) ⟨rfl, w, hw, rfl⟩ (fun rest => ?_) r.1
    obtain ⟨_, hr⟩ := endArray_blank hw rest
    rw [List.append_assoc, List.singleton_append, hr]
    rfl

def Closes (g : Grammar) (c : Bytes) : Prop :=
  g.toDocument.value.depth ≤ depthLimit ∧ Moves 1 0 g.toDocument.value.depth c

lemma Closes.after {g : Grammar} {n : ℕ} {v c : Bytes} (hv : Nests n v) (hc : Closes g c) :
    Closes g (v ++ c) :=
  ⟨hc.1, (hv.deeper.append hc.2).mono (Nat.le_max_right _ _)⟩

lemma closes_patterns {g : Grammar} {v c : Bytes} (hd : Rule.depths g.patterns + 1 < depthLimit)
    (hv : Nests (Rule.depths g.patterns + 1) v) (hc : Moves 1 0 1 c) : Closes g (v ++ c) := by
  have hg : g.toDocument.value.depth = Rule.depths g.patterns + 1 + 1 := g.depth_toDocument
  rw [Closes, hg]
  exact ⟨hd, (hv.deeper.append hc).mono (Nat.le_max_left _ _)⟩

lemma grammarItems_ends : grammarItems.Ends fun g c => Holds g (openBracket :: c) := by
  intro s
  have htext (i : ℕ) := requiredItem_takes text_nest nests_after i
  have htypes := requiredItem_takes fileTypes_takes nests_after 2
  have hpatterns := requiredItem_takes patterns_takes (fun _ _ _ hv hc => ⟨hc.1, .after hv.runs hc.2⟩) 3
  refine Reader.TakesFrom.imp (P := Closes) ?_ fun g c hc => ⟨hc.1, .of_opening (.inl rfl) hc.2⟩
  refine (htext 0 s).andThen (Q := fun _ => Closes) (fun name s _ => ?_)
    fun _ c g d hc hd => hd.after hc
  refine (htext 1 s).andThen (Q := fun _ => Closes) (fun scopeName s _ => ?_)
    fun _ c g d hc hd => hd.after hc
  refine (htypes s).andThen (Q := fun _ => Closes) (fun fileTypes s _ => ?_)
    fun _ c g d hc hd => hd.after hc
  refine (hpatterns s).andThen (fun patterns s _ => endArray_ends ⟨name, scopeName, fileTypes, patterns⟩ s)
    fun patterns c g d hc hd => ?_
  obtain ⟨rfl, w, hw, rfl⟩ := hd
  exact closes_patterns hc.1 hc.2 (moves_closed hw (.inl rfl))

lemma grammar_ends : grammar.Ends Holds := by
  intro s
  refine .afterSpace ?_ fun w g c hw hc => hc.after hw.runs
  cases skipSpace s with
  | nil => exact .of_error (p := []) rfl
  | cons b s =>
    by_cases ha : b = openBracket
    · subst ha
      refine (grammarItems_ends s).cons (fun t => ?_) fun _ _ hc => hc
      simp only [if_true, outcome_widen]
    by_cases ho : b = openBrace
    · subst ho
      refine (grammarMembers_ends s).cons (fun t => ?_) fun _ _ hc => hc
      simp only [if_neg ha, if_true, outcome_widen]
    · refine .of_error (p := (mismatch "struct Grammar" (b :: s)).path) ?_
      simp only [if_neg ha, if_neg ho, outcome_error]

end Json

end Highlight
