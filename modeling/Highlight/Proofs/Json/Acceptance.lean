import Highlight.Proofs.Json.Decoding
import Highlight.Proofs.Json.Printer
import Highlight.Proofs.Json.Schema

/-! The grammars that are read from JSON are exactly those that the schema gives. -/

namespace Highlight.Json

open Rule.SingleFields (fill)

def ReadsGrammar (v : Value) (g : Grammar) : Prop :=
  ∃ ms vs, v = .object ms ∧ ("name", .text g.name) ∈ ms ∧ ("scopeName", .text g.scopeName) ∈ ms ∧
    ("fileTypes", .array (g.fileTypes.map .text)) ∈ ms ∧ ("patterns", .array vs) ∈ ms ∧
    ReadsRules vs g.patterns

/-- What stands in the place of the grammar, of a rule or of a capture record is no array, and if it is an
object its keys differ. -/
inductive TidyGrammar : Value → Prop
  | scalar {v : Value} {x : Scalar} : v.scalar? = some x → TidyGrammar v
  | object {ms : Members} : DistinctKeys ms →
      (∀ vs, ("patterns", .array vs) ∈ ms → ∀ v ∈ vs, TidyRule v) → TidyGrammar (.object ms)

/-! ### Members of a grammar -/

variable {α : Type}

lemma textOf_iff (v : Value) (s : String) : textOf v = .ok s ↔ v = .text s := by
  cases v <;> simp [textOf]

lemma itemsOf_iff (f : Value → Except (List Step) α) (i : ℕ) (vs : List Value) (as : List α) :
    itemsOf f i vs = .ok as ↔ List.Forall₂ (fun v a => f v = .ok a) vs as := by
  induction vs generalizing i as with
  | nil =>
    constructor
    · rintro ⟨⟩
      exact .nil
    · rintro ⟨⟩
      rfl
  | cons v vs ih =>
    rw [itemsOf]
    constructor
    · intro h
      cases ha : f v with
      | error p => simp [ha] at h
      | ok a =>
        cases hs : itemsOf f (i + 1) vs with
        | error p => simp [ha, hs, Except.map] at h
        | ok bs =>
          obtain rfl : a :: bs = as := by simpa [ha, hs, Except.map] using h
          exact .cons ha ((ih _ _).mp hs)
    · intro h
      cases h with
      | cons ha hs =>
        rw [ha, (ih _ _).mpr hs]
        rfl

lemma arrayOf_iff (f : Value → Except (List Step) α) (v : Value) (as : List α) :
    arrayOf f v = .ok as ↔ ∃ vs, v = .array vs ∧ List.Forall₂ (fun v a => f v = .ok a) vs as := by
  cases v <;> simp [arrayOf, itemsOf_iff]

lemma forall₂_textOf_iff (vs : List Value) (ts : List String) :
    List.Forall₂ (fun v t => textOf v = .ok t) vs ts ↔ vs = ts.map .text := by
  induction ts generalizing vs with
  | nil =>
    constructor
    · rintro ⟨⟩
      rfl
    · rintro rfl
      exact .nil
  | cons t ts ih =>
    constructor
    · rintro (_ | ⟨hv, hvs⟩)
      rw [(textOf_iff _ t).mp hv, (ih _).mp hvs]
      rfl
    · rintro rfl
      exact .cons rfl ((ih _).mpr rfl)

lemma ruleOf_iff {depth : ℕ} {v : Value} (hd : v.depth ≤ depth) (hv : TidyRule v) (r : Rule) :
    ruleOf depth v = .ok r ↔ ReadsRule v r := by
  rw [← ofTree?_iff hv, ruleOf, treeOf_of_depth_le hd, Except.bind]
  cases Rule.ofTree? v.tree <;> simp

lemma forall₂_ruleOf_iff {depth : ℕ} {vs : List Value} (hd : Value.itemsDepth vs ≤ depth)
    (hv : ∀ v ∈ vs, TidyRule v) (rs : List Rule) :
    List.Forall₂ (fun v r => ruleOf depth v = .ok r) vs rs ↔ ReadsRules vs rs := by
  induction vs generalizing rs with
  | nil =>
    constructor
    · rintro ⟨⟩
      exact .nil
    · rintro ⟨⟩
      exact .nil
  | cons v vs ih =>
    rw [Value.itemsDepth] at hd
    have hd' : v.depth ≤ depth := by omega
    have hhead := ruleOf_iff hd' (hv v (by simp))
    have htail := ih (by omega) fun u hu => hv u (by simp [hu])
    constructor
    · rintro (_ | ⟨hr, hrs⟩)
      exact .cons ((hhead _).mp hr) ((htail _).mp hrs)
    · rintro (_ | ⟨hr, hrs⟩)
      exact .cons ((hhead _).mpr hr) ((htail _).mpr hrs)

/-! ### Fields -/

def fieldsAfter (f : Grammar.Fields) (ms : Members) : Option Grammar.Fields :=
  (slot "name" (fun v => (textOf v).toOption) f.name ms).bind fun name =>
  (slot "scopeName" (fun v => (textOf v).toOption) f.scopeName ms).bind fun scopeName =>
  (slot "fileTypes" (fun v => (arrayOf textOf v).toOption) f.fileTypes ms).bind fun fileTypes =>
  (slot "patterns" (fun v => (arrayOf (ruleOf (depthLimit - 2)) v).toOption) f.patterns ms).map
    fun patterns => ⟨name, scopeName, fileTypes, patterns⟩

lemma fieldOf_toOption (key : String) (known : Option α) (f : Value → Except (List Step) α)
    (put : α → Grammar.Fields) (v : Value) :
    (fieldOf key known f put v).toOption = known.elim ((f v).toOption.map put) fun _ => none := by
  cases known with
  | some a => rfl
  | none => cases hf : f v <;> simp [fieldOf, hf, Except.toOption, Except.map, Except.mapError]

lemma membersOf_cons_toOption (f : Grammar.Fields) (k : String) (v : Value) (ms : Members) :
    (membersOf memberOf f ((k, v) :: ms)).toOption =
      (memberOf f k v).toOption.bind fun f => (membersOf memberOf f ms).toOption := by
  rw [membersOf]
  cases memberOf f k v <;> rfl

lemma membersOf_toOption (f : Grammar.Fields) (ms : Members) :
    (membersOf memberOf f ms).toOption = fieldsAfter f ms := by
  induction ms generalizing f with
  | nil => rfl
  | cons m ms ih =>
    obtain ⟨k, v⟩ := m
    rw [membersOf_cons_toOption, memberOf]
    simp only [ih]
    by_cases hname : k = "name"
    · subst hname
      simp only [if_true, fieldOf_toOption, fieldsAfter, slot]
      cases f.name <;> cases (textOf v).toOption <;> simp [fill]
    by_cases hscope : k = "scopeName"
    · subst hscope
      simp only [hname, if_true, if_false, fieldOf_toOption, fieldsAfter, slot]
      cases f.scopeName <;> cases (textOf v).toOption <;> simp [fill]
    by_cases htypes : k = "fileTypes"
    · subst htypes
      simp only [hname, hscope, if_true, if_false, fieldOf_toOption, fieldsAfter, slot]
      cases f.fileTypes <;> cases (arrayOf textOf v).toOption <;> simp [fill]
    by_cases hpatterns : k = "patterns"
    · subst hpatterns
      simp only [hname, hscope, htypes, if_true, if_false, fieldOf_toOption, fieldsAfter, slot]
      cases f.patterns <;> cases (arrayOf (ruleOf (depthLimit - 2)) v).toOption <;> simp [fill]
    simp [hname, hscope, htypes, hpatterns, fieldsAfter, slot, Except.toOption]

lemma grammar_eq_ok_iff (f : Grammar.Fields) (g : Grammar) : f.grammar = .ok g ↔
    f = ⟨some g.name, some g.scopeName, some g.fileTypes, some g.patterns⟩ := by
  obtain ⟨name, scopeName, fileTypes, patterns⟩ := f
  obtain ⟨gname, gscopeName, gfileTypes, gpatterns⟩ := g
  cases name <;> cases scopeName <;> cases fileTypes <;> cases patterns <;>
    simp [Grammar.Fields.grammar]

lemma grammarOf_object_iff (ms : Members) (g : Grammar) : grammarOf (.object ms) = .ok g ↔
    fieldsAfter {} ms = some ⟨some g.name, some g.scopeName, some g.fileTypes, some g.patterns⟩ := by
  rw [← membersOf_toOption, grammarOf]
  cases membersOf memberOf {} ms with
  | error p => simp [Except.bind, Except.toOption]
  | ok f =>
    rw [toOption_eq_some_iff, Except.ok.injEq, ← grammar_eq_ok_iff, Except.bind]
    cases f.grammar <;> simp [Except.mapError]

lemma fieldsAfter_iff {ms : Members} (h : DistinctKeys ms) (g : Grammar) :
    fieldsAfter {} ms = some ⟨some g.name, some g.scopeName, some g.fileTypes, some g.patterns⟩ ↔
      ("name", .text g.name) ∈ ms ∧ ("scopeName", .text g.scopeName) ∈ ms ∧
        (∃ v, ("fileTypes", v) ∈ ms ∧ arrayOf textOf v = .ok g.fileTypes) ∧
        ∃ v, ("patterns", v) ∈ ms ∧ arrayOf (ruleOf (depthLimit - 2)) v = .ok g.patterns := by
  have hslot {β : Type} (key : String) (f : Value → Except (List Step) β) (a : β) :
      slot key (fun v => (f v).toOption) none ms = some (some a) ↔
        ∃ v, (key, v) ∈ ms ∧ f v = .ok a := by
    simp only [slot_eq_filled_iff h, toOption_eq_some_iff]
  have htext (key : String) (t : String) :
      slot key (fun v => (textOf v).toOption) none ms = some (some t) ↔ (key, .text t) ∈ ms := by
    simp [hslot, textOf_iff]
  constructor
  · intro hf
    simp only [fieldsAfter, Option.bind_eq_some_iff, Option.map_eq_some_iff] at hf
    obtain ⟨name, hname, scopeName, hscope, fileTypes, htypes, patterns, hpatterns, hg⟩ := hf
    obtain ⟨rfl, rfl, rfl, rfl⟩ : name = some g.name ∧ scopeName = some g.scopeName ∧
        fileTypes = some g.fileTypes ∧ patterns = some g.patterns := by simpa using hg
    exact ⟨(htext _ _).mp hname, (htext _ _).mp hscope, (hslot _ _ _).mp htypes,
      (hslot _ _ _).mp hpatterns⟩
  · rintro ⟨hname, hscope, htypes, hpatterns⟩
    simp only [fieldsAfter, (htext _ _).mpr hname, (htext _ _).mpr hscope, (hslot _ _ _).mpr htypes,
      (hslot _ _ _).mpr hpatterns, Option.bind_some, Option.map_some]

lemma arrayOf_textOf_iff (v : Value) (ts : List String) :
    arrayOf textOf v = .ok ts ↔ v = .array (ts.map .text) := by
  simp only [arrayOf_iff, forall₂_textOf_iff, exists_eq_right]

/-! ### Grammars -/

lemma grammarOf_iff {v : Value} (hd : v.depth ≤ depthLimit) (ht : TidyGrammar v) (g : Grammar) :
    grammarOf v = .ok g ↔ ReadsGrammar v g := by
  cases ht with
  | @scalar _ x hx =>
    have hn : ¬ ReadsGrammar v g := by
      rintro ⟨ms, vs, rfl, -⟩
      cases hx
    cases v with
    | object => cases hx
    | null | boolean | number | text | array => simp [grammarOf, hn]
  | @object ms hk hp =>
    have hrules {vs : List Value} (hm : ("patterns", .array vs) ∈ ms) (rs : List Rule) :
        List.Forall₂ (fun v r => ruleOf (depthLimit - 2) v = .ok r) vs rs ↔ ReadsRules vs rs := by
      have hvs : Value.itemsDepth vs + 1 ≤ Value.membersDepth ms := depth_le_of_mem_members hm
      have hms : Value.membersDepth ms + 1 ≤ 127 := hd
      have hl : depthLimit - 2 = 125 := rfl
      exact forall₂_ruleOf_iff (by omega) (hp vs hm) rs
    rw [grammarOf_object_iff, fieldsAfter_iff hk]
    simp only [arrayOf_textOf_iff, exists_eq_right]
    constructor
    · rintro ⟨hname, hscope, htypes, v, hm, hv⟩
      obtain ⟨vs, rfl, hvs⟩ := (arrayOf_iff _ _ _).mp hv
      exact ⟨ms, vs, rfl, hname, hscope, htypes, hm, (hrules hm _).mp hvs⟩
    · rintro ⟨_, vs, ⟨⟩, hname, hscope, htypes, hm, hvs⟩
      exact ⟨hname, hscope, htypes, _, hm, (arrayOf_iff _ _ _).mpr ⟨vs, rfl, (hrules hm _).mpr hvs⟩⟩

end Highlight.Json

namespace Highlight.Grammar

open Bytes Json

theorem ofJson_eq_ok_iff_reads {v : Value} {w b w' : Bytes} (hw : Blank w) (hb : Spells v b)
    (hw' : Blank w') (hd : v.depth ≤ 127) (ht : TidyGrammar v) (g : Grammar) :
    ofJson (w ++ (b ++ w')) = .ok g ↔ ReadsGrammar v g := by
  have hv : ∀ vs, v ≠ .array vs := by
    rintro vs rfl
    rcases ht with ⟨⟨⟩⟩
  rw [ofJson_eq_ok_iff hv hw hb hw', grammarOf_iff hd ht]

def overlapping : Document :=
  .record [("patterns", .list [
      .record [("end", .text "b"), ("begin", .text "a"), ("match", .text "x"), ("name", .text "m")],
      .record [("end", .text "b"), ("begin", .text "a"), ("match", .text "x"), ("name", .text "r"),
        ("captures", .text "")]]),
    ("version", .text "1"), ("fileTypes", .list []), ("scopeName", .text "s"), ("name", .text "g")]

theorem ofJson_overlapping : ofJson ([] ++ (ofChars (indented 0 overlapping) ++ [])) =
    .ok ⟨"g", "s", [], [.single "m" "x" none, .region "r" "a" "b" none none none]⟩ := by
  have hb := spells_indented overlapping 0
  simp only [overlapping, Document.value, Document.values, Document.memberValues] at hb
  have hbroken : ∀ r, ¬ ReadsSingle [("end", .text "b"), ("begin", .text "a"), ("match", .text "x"),
      ("name", .text "r"), ("captures", .text "")] r := by
    rintro r ⟨name, pattern, captures, -, -, hc, -⟩
    cases captures with
    | none => simp [ReadsOptional] at hc
    | some c => simp [ReadsOptional, ReadsCaptures] at hc
  refine (ofJson_eq_ok_iff_reads .nil hb .nil (by decide) (.object ?_ ?_) _).mpr
    ⟨_, _, rfl, by simp, by simp, by simp, .head _, .cons (.single ?_) (.cons ?_ .nil)⟩
  · simp [DistinctKeys]
  · intro vs hvs v hv
    obtain rfl : vs = [_, _] := by simpa using hvs
    rcases (by simpa using hv : v = _ ∨ v = _) with rfl | rfl <;>
      exact .object (by simp [DistinctKeys]) (by simp [TidyCaptures]) (by simp [TidyCaptures])
        (by simp [TidyCaptures]) (by simp)
  · exact ⟨"m", "x", none, by simp, by simp, .inl (by simp), rfl⟩
  · exact .region hbroken (by simp) (by simp) (by simp) (.absent (by simp)) (.inl (by simp))
      (.inl (by simp))

end Highlight.Grammar
