import Highlight.Proofs.Grammar.Validation
import Highlight.Proofs.Text.Numeral
import Highlight.Proofs.Text.Pieces
import Mathlib.Data.List.Nodup

/-! Places of patterns. A place can be told from its text, and following its indices leads to the rule
that holds the pattern. -/

namespace Highlight

namespace Rule

def nested : Rule → List Rule
  | .single .. => []
  | .region _ _ _ nested _ _ => nested.getD []

def pattern? : Rule → Grammar.Field → Option String
  | .single _ pattern _, .single => some pattern
  | .region _ opening .., .opening => some opening
  | .region _ _ closing .., .closing => some closing
  | _, _ => none

def descendant? : List ℕ → Rule → Option Rule
  | [], r => some r
  | i :: is, r => r.nested[i]?.bind (descendant? is)

end Rule

namespace Grammar

def ruleAt? (g : Grammar) : List ℕ → Option Rule
  | [] => none
  | i :: is => g.patterns[i]?.bind (Rule.descendant? is)

def patternAt? (g : Grammar) (s : Site) : Option String :=
  (g.ruleAt? s.indices).bind (·.pattern? s.field)

/-! ### Reading a place -/

def Field.ofName? (name : String) : Option Field :=
  [Field.single, .opening, .closing].find? (·.name = name)

lemma Field.ofName?_name (f : Field) : ofName? f.name = some f := by
  cases f <;> rfl

def index? (step : String) : Option ℕ :=
  Numeral.natural? 10 (step.toList.drop "patterns[".length).dropLast

def Site.ofText? (text : String) : Option Site :=
  match (stringPieces '.' text).dropLast.mapM index?,
      (stringPieces '.' text).getLast?.bind Field.ofName? with
  | some indices, some field => some ⟨indices, field⟩
  | _, _ => none

def stepText (i : ℕ) : String := s!"patterns[{i}]"

lemma toList_stepText (i : ℕ) :
    (stepText i).toList = "patterns[".toList ++ (Digits.decimal i ++ [']']) := by
  have hs : stepText i = "patterns[" ++ i.repr ++ "]" := rfl
  rw [hs, String.toList_append, String.toList_append, Nat.toList_repr, List.append_assoc]
  rfl

lemma index?_stepText (i : ℕ) : index? (stepText i) = some i := by
  rw [index?, toList_stepText, ← String.length_toList, List.drop_left, List.dropLast_concat,
    Numeral.natural?_decimal]

lemma not_mem_stepText (i : ℕ) : '.' ∉ (stepText i).toList := by
  have hdigit : '.' ∉ Digits.decimal i := fun h =>
    absurd (Digits.isDigit_of_mem_decimal h) (by decide)
  rw [toList_stepText, List.mem_append, List.mem_append, not_or, not_or]
  exact ⟨by decide, hdigit, by decide⟩

namespace Site

variable {s : Site} (h : s.indices ≠ [])

include h

lemma text_eq : s.text = ".".intercalate (s.indices.map stepText ++ [s.field.name]) := by
  rw [String.intercalate_append_of_ne_nil (by simpa using h) (by simp), String.intercalate_singleton]
  rfl

lemma stringPieces_text : stringPieces '.' s.text = s.indices.map stepText ++ [s.field.name] := by
  have hdot : ∀ w ∈ (s.indices.map stepText ++ [s.field.name]).map String.toList, '.' ∉ w := by
    intro w hw
    obtain ⟨t, ht, rfl⟩ := List.mem_map.mp hw
    rcases List.mem_append.mp ht with ht | ht
    · obtain ⟨i, -, rfl⟩ := List.mem_map.mp ht
      exact not_mem_stepText i
    · rw [List.mem_singleton.mp ht]
      cases s.field <;> decide
  have hsep : ".".toList = ['.'] := rfl
  rw [stringPieces, text_eq h, String.toList_intercalate, hsep, pieces_intercalate (by simp) hdot,
    List.map_map]
  simp [Function.comp_def]

lemma ofText?_text : ofText? s.text = some s := by
  have hi : (s.indices.map stepText).mapM index? = some s.indices := by
    have hf : index? ∘ stepText = fun i => pure i := funext index?_stepText
    rw [List.mapM_map, hf, List.mapM_pure, List.map_id']
    rfl
  rw [ofText?, stringPieces_text h, List.dropLast_concat, hi, List.getLast?_concat, Option.bind_some,
    Field.ofName?_name]

end Site

/-! ### Following a place -/

def ownEntries (indices : List ℕ) : Rule → List Entry
  | .single _ pattern _ => [⟨⟨indices, .single⟩, pattern, false⟩]
  | .region _ opening closing _ _ _ => [⟨⟨indices, .opening⟩, opening, false⟩,
      ⟨⟨indices, .closing⟩, closing, hasBackreference closing.toList⟩]

lemma ruleEntries_eq (indices : List ℕ) (r : Rule) :
    ruleEntries indices r = ownEntries indices r ++ rulesEntries indices 0 r.nested := by
  cases r with
  | single => rfl
  | region name opening closing nested => cases nested <;> rfl

def placed (es : List Entry) : List (Site × String) := es.map fun e => (e.site, e.pattern)

lemma placed_append (es fs : List Entry) : placed (es ++ fs) = placed es ++ placed fs := List.map_append

variable {s : Site} {p : String}

lemma mem_ownEntries (indices : List ℕ) (r : Rule) :
    (s, p) ∈ placed (ownEntries indices r) ↔ s.indices = indices ∧ r.pattern? s.field = some p := by
  obtain ⟨is, f⟩ := s
  cases r <;> cases f <;> simp [placed, ownEntries, Rule.pattern?, eq_comm]

mutual

theorem mem_ruleEntries (before : List ℕ) (r : Rule) : (s, p) ∈ placed (ruleEntries before r) ↔
    ∃ js, s.indices = before ++ js ∧ (r.descendant? js).bind (·.pattern? s.field) = some p := by
  have hn : (s, p) ∈ placed (rulesEntries before 0 r.nested) ↔ ∃ j js,
      s.indices = before ++ j :: js ∧
        (r.nested[j]?.bind (Rule.descendant? js)).bind (·.pattern? s.field) = some p := by
    cases r with
    | single => simp [Rule.nested, rulesEntries, placed]
    | region name opening closing nested =>
      cases nested with
      | none => simp [Rule.nested, rulesEntries, placed]
      | some rules => simpa [Rule.nested] using mem_rulesEntries before 0 rules
  rw [ruleEntries_eq, placed_append, List.mem_append, mem_ownEntries, hn]
  constructor
  · rintro (⟨hi, hp⟩ | ⟨j, js, hi, hp⟩)
    · exact ⟨[], by simpa using hi, hp⟩
    · exact ⟨j :: js, hi, hp⟩
  · rintro ⟨_ | ⟨j, js⟩, hi, hp⟩
    · exact .inl ⟨by simpa using hi, hp⟩
    · exact .inr ⟨j, js, hi, hp⟩

theorem mem_rulesEntries (before : List ℕ) (i : ℕ) (rs : List Rule) :
    (s, p) ∈ placed (rulesEntries before i rs) ↔ ∃ j js, s.indices = before ++ (i + j) :: js ∧
      (rs[j]?.bind (Rule.descendant? js)).bind (·.pattern? s.field) = some p := by
  cases rs with
  | nil => simp [rulesEntries, placed]
  | cons r rs =>
    rw [rulesEntries, placed_append, List.mem_append, mem_ruleEntries (before ++ [i]) r,
      mem_rulesEntries before (i + 1) rs]
    constructor
    · rintro (⟨js, hi, hp⟩ | ⟨j, js, hi, hp⟩)
      · exact ⟨0, js, by simpa using hi, hp⟩
      · exact ⟨j + 1, js, by rw [hi, Nat.add_right_comm, Nat.add_assoc], hp⟩
    · rintro ⟨_ | j, js, hi, hp⟩
      · exact .inl ⟨js, by simpa using hi, hp⟩
      · exact .inr ⟨j, js, by rw [hi, Nat.add_right_comm, Nat.add_assoc], hp⟩

end

lemma patternAt?_iff (g : Grammar) (s : Site) (p : String) :
    g.patternAt? s = some p ↔ ∃ e ∈ g.entries, e.site = s ∧ e.pattern = p := by
  obtain ⟨indices, field⟩ := s
  have hm : (⟨indices, field⟩, p) ∈ placed g.entries ↔
      ∃ e ∈ g.entries, e.site = ⟨indices, field⟩ ∧ e.pattern = p := by
    simp [placed]
  rw [← hm, entries, mem_rulesEntries]
  cases indices <;> simp [patternAt?, ruleAt?]

/-! ### No place twice -/

def sites (es : List Entry) : List Site := es.map (·.site)

lemma sites_append (es fs : List Entry) : sites (es ++ fs) = sites es ++ sites fs := List.map_append

lemma exists_placed {es : List Entry} (h : s ∈ sites es) : ∃ p, (s, p) ∈ placed es := by
  obtain ⟨e, he, rfl⟩ := List.mem_map.mp h
  exact ⟨e.pattern, List.mem_map_of_mem he⟩

lemma indices_of_own {before : List ℕ} {r : Rule} (h : s ∈ sites (ownEntries before r)) :
    s.indices = before := by
  obtain ⟨p, hp⟩ := exists_placed h
  exact ((mem_ownEntries before r).mp hp).1

lemma indices_of_rule {before : List ℕ} {r : Rule} (h : s ∈ sites (ruleEntries before r)) :
    ∃ js, s.indices = before ++ js := by
  obtain ⟨p, hp⟩ := exists_placed h
  obtain ⟨js, hi, -⟩ := (mem_ruleEntries before r).mp hp
  exact ⟨js, hi⟩

lemma indices_of_rules {before : List ℕ} {i : ℕ} {rs : List Rule}
    (h : s ∈ sites (rulesEntries before i rs)) : ∃ j js, s.indices = before ++ (i + j) :: js := by
  obtain ⟨p, hp⟩ := exists_placed h
  obtain ⟨j, js, hi, -⟩ := (mem_rulesEntries before i rs).mp hp
  exact ⟨j, js, hi⟩

mutual

theorem nodup_ruleEntries (before : List ℕ) (r : Rule) : (sites (ruleEntries before r)).Nodup := by
  have hown : (sites (ownEntries before r)).Nodup := by
    cases r <;> simp [sites, ownEntries]
  have hn : (sites (rulesEntries before 0 r.nested)).Nodup := by
    cases r with
    | single => exact .nil
    | region name opening closing nested =>
      cases nested with
      | none => exact .nil
      | some rules => exact nodup_rulesEntries before 0 rules
  rw [ruleEntries_eq, sites_append]
  refine List.nodup_append.mpr ⟨hown, hn, ?_⟩
  rintro s hs t ht rfl
  -- The places inside the rule have one index more.
  obtain ⟨j, js, hi⟩ := indices_of_rules ht
  rw [indices_of_own hs] at hi
  simp at hi

theorem nodup_rulesEntries (before : List ℕ) (i : ℕ) (rs : List Rule) :
    (sites (rulesEntries before i rs)).Nodup := by
  cases rs with
  | nil => exact .nil
  | cons r rs =>
    rw [rulesEntries, sites_append]
    refine List.nodup_append.mpr
      ⟨nodup_ruleEntries (before ++ [i]) r, nodup_rulesEntries before (i + 1) rs, ?_⟩
    rintro s hs t ht rfl
    -- The places in the rules behind have a greater index here.
    obtain ⟨js, hi⟩ := indices_of_rule hs
    obtain ⟨j, ks, hj⟩ := indices_of_rules ht
    rw [hi, List.append_assoc, List.append_cancel_left_eq, List.singleton_append,
      List.cons.injEq] at hj
    omega

end

lemma site_of_entry {g : Grammar} {e : Entry} (h : e ∈ g.entries) :
    Site.ofText? e.site.text = some e.site ∧ g.patternAt? e.site = some e.pattern := by
  obtain ⟨j, js, hi⟩ := indices_of_rules (List.mem_map_of_mem h)
  exact ⟨Site.ofText?_text (by simp [hi]), (patternAt?_iff g _ _).mpr ⟨e, h, rfl, rfl⟩⟩

lemma nodup_texts (g : Grammar) : (g.entries.map (·.site.text)).Nodup := by
  have hs : (g.entries.map (·.site)).Nodup := nodup_rulesEntries [] 0 g.patterns
  apply List.Nodup.map_on _ (List.Nodup.of_map _ hs)
  intro e he f hf hef
  have ht := (site_of_entry he).1
  rw [hef, (site_of_entry hf).1] at ht
  exact List.inj_on_of_nodup_map hs he hf (Option.some.inj ht).symm

/-- Validation names a pattern, when it reports on it or refuses it, by a text from which its place can be
read, and following that place leads to the pattern. No two patterns have the same text. -/
theorem site_text_identifies (g : Grammar) :
    (∀ r ∈ g.validate.2, r = g.accepted ∨ ∃ s p, (r = compiling s p ∨ r = skipped s) ∧
      Site.ofText? s.text = some s ∧ g.patternAt? s = some p) ∧
    (∀ i, g.validate.1 = .error i →
      Site.ofText? i.site.text = some i.site ∧ g.patternAt? i.site = some i.pattern) ∧
    (∀ s p, g.patternAt? s = some p ↔ ∃ e ∈ g.entries, e.site = s ∧ e.pattern = p) ∧
    (g.entries.map (·.site.text)).Nodup := by
  refine ⟨fun r hr => ?_, fun i hi => ?_, patternAt?_iff g, nodup_texts g⟩
  · rcases exists_entry_of_report hr with hr | ⟨e, he, rfl⟩
    · exact .inl hr
    · refine .inr ⟨e.site, e.pattern, ?_, site_of_entry he⟩
      rw [Entry.line]
      split
      · exact .inl rfl
      · exact .inr rfl
  · obtain ⟨e, he, hs, hp⟩ := exists_entry_of_refusal hi
    rw [hs, hp]
    exact site_of_entry he

def partlyRefused : Grammar := ⟨"", "", [], [.single "" "a" none,
  .region "" "<" "\\1" (some [.single "" "(" none]) none none]⟩

theorem site_text_identifies_nested :
    skipped ⟨[1], .closing⟩ ∈ partlyRefused.validate.2 ∧
    partlyRefused.validate.1 = .error ⟨⟨[1, 0], .single⟩, "(", .unmatchedOpen⟩ ∧
    (skipped ⟨[1], .closing⟩ = partlyRefused.accepted ∨
      ∃ s p, (skipped ⟨[1], .closing⟩ = compiling s p ∨ skipped ⟨[1], .closing⟩ = skipped s) ∧
        Site.ofText? s.text = some s ∧ partlyRefused.patternAt? s = some p) ∧
    Site.ofText? (Site.text ⟨[1, 0], .single⟩) = some ⟨[1, 0], .single⟩ ∧
    partlyRefused.patternAt? ⟨[1, 0], .single⟩ = some "(" := by
  have hlog : skipped ⟨[1], .closing⟩ ∈ partlyRefused.validate.2 := by decide +kernel
  have hresult : partlyRefused.validate.1 = .error ⟨⟨[1, 0], .single⟩, "(", .unmatchedOpen⟩ := by decide +kernel
  obtain ⟨hreport, hrefusal, -, -⟩ := site_text_identifies partlyRefused
  exact ⟨hlog, hresult, hreport _ hlog, hrefusal _ hresult⟩

end Grammar

end Highlight
