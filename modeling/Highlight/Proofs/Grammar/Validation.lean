import Highlight.Grammar.Validation
import Mathlib.Tactic.Common
import Mathlib.Data.List.Basic

/-! Validation is a search through the patterns of a grammar for the first that is refused. -/

namespace Highlight.Grammar

namespace Verdict

lemma andThen_assoc (v : Verdict) (next last : Unit → Verdict) :
    (v.andThen next).andThen last = v.andThen fun _ => (next ()).andThen last := by
  obtain ⟨result, log⟩ := v
  cases result with
  | error i => rfl
  | ok u =>
    cases hn : next () with
    | mk result' log' => cases result' <;> simp [andThen, hn]

lemma mem_log_andThen {v : Verdict} {next : Unit → Verdict} {r : Log.Record}
    (h : r ∈ (v.andThen next).2) : r ∈ v.2 ∨ r ∈ (next ()).2 := by
  obtain ⟨result, log⟩ := v
  cases result with
  | error i => exact .inl h
  | ok u => exact List.mem_append.mp h

lemma error_of_andThen {v : Verdict} {next : Unit → Verdict} {i : Invalid}
    (h : (v.andThen next).1 = .error i) (hn : (next ()).1 = .ok ()) : v.1 = .error i := by
  obtain ⟨result, log⟩ := v
  cases result with
  | error j => exact h
  | ok u => cases hn.symm.trans h

end Verdict

namespace Entry

def invalid? (e : Entry) : Option Invalid :=
  match Pattern.compile e.pattern.toList with
  | .error f => some ⟨e.site, e.pattern, f⟩
  | .ok _ => none

lemma invalid?_eq_none_iff (e : Entry) :
    e.invalid? = none ↔ ∃ p, Pattern.compile e.pattern.toList = .ok p := by
  rw [invalid?]
  cases Pattern.compile e.pattern.toList <;> simp

lemma invalid?_eq_some_iff (e : Entry) (i : Invalid) :
    e.invalid? = some i ↔
      i.site = e.site ∧ i.pattern = e.pattern ∧ Pattern.compile e.pattern.toList = .error i.fault := by
  rw [invalid?]
  cases Pattern.compile e.pattern.toList with
  | ok p => simp
  | error f =>
    obtain ⟨site, pattern, fault⟩ := i
    simp only [Option.some.injEq, Invalid.mk.injEq, Except.error.injEq]
    constructor
    · rintro ⟨rfl, rfl, rfl⟩
      exact ⟨rfl, rfl, rfl⟩
    · rintro ⟨rfl, rfl, rfl⟩
      exact ⟨rfl, rfl, rfl⟩

def standsAlone (e : Entry) : Bool := !e.refersToOpening

def isRejected (e : Entry) : Bool := e.standsAlone && e.invalid?.isSome

def line (e : Entry) : Log.Record :=
  if e.standsAlone then compiling e.site e.pattern else skipped e.site

end Entry

def reached (es : List Entry) : List Entry :=
  es.takeWhile (!·.isRejected) ++ (es.find? (·.isRejected)).toList

lemma reached_nil : reached [] = [] := rfl

lemma reached_cons_of_rejected {e : Entry} (h : e.isRejected = true) (es : List Entry) :
    reached (e :: es) = [e] := by
  simp [reached, h]

lemma reached_cons {e : Entry} (h : e.isRejected = false) (es : List Entry) :
    reached (e :: es) = e :: reached es := by
  simp [reached, h]

lemma mem_of_mem_reached {e : Entry} {es : List Entry} (h : e ∈ reached es) : e ∈ es := by
  rcases List.mem_append.mp h with h | h
  · exact List.takeWhile_subset _ h
  · exact List.mem_of_find?_eq_some (Option.mem_toList.mp h)

def search (es : List Entry) : Verdict :=
  (match (es.filter (·.standsAlone)).findSome? (·.invalid?) with
    | none => .ok ()
    | some i => .error i,
  (reached es).map (·.line))

lemma search_cons (e : Entry) (es : List Entry) :
    search (e :: es) = (search [e]).andThen fun _ => search es := by
  cases hs : e.standsAlone with
  | false =>
    have hr : e.isRejected = false := by simp [Entry.isRejected, hs]
    simp [search, hs, reached_cons hr, Verdict.andThen, reached_nil]
  | true =>
    cases hi : e.invalid? with
    | none =>
      have hr : e.isRejected = false := by simp [Entry.isRejected, hi]
      simp [search, hs, hi, reached_cons hr, Verdict.andThen, reached_nil]
    | some i =>
      have hr : e.isRejected = true := by simp [Entry.isRejected, hs, hi]
      simp [search, hs, hi, reached_cons_of_rejected hr, Verdict.andThen]

lemma search_append (es fs : List Entry) :
    search (es ++ fs) = (search es).andThen fun _ => search fs := by
  induction es with
  | nil => rfl
  | cons e es ih => rw [List.cons_append, search_cons, ih, search_cons e es, Verdict.andThen_assoc]

lemma check_eq_search (s : Site) (pattern : String) : check s pattern = search [⟨s, pattern, false⟩] := by
  rw [check]
  cases hp : Pattern.compile pattern.toList with
  | ok p =>
    have hi : Entry.invalid? ⟨s, pattern, false⟩ = none := by simp [Entry.invalid?, hp]
    have hr : Entry.isRejected ⟨s, pattern, false⟩ = false := by simp [Entry.isRejected, hi]
    simp [search, reached_cons hr, reached_nil, hi, Entry.standsAlone, Entry.line]
  | error f =>
    have hi : Entry.invalid? ⟨s, pattern, false⟩ = some ⟨s, pattern, f⟩ := by
      simp [Entry.invalid?, hp]
    have hr : Entry.isRejected ⟨s, pattern, false⟩ = true := by
      simp [Entry.isRejected, hi, Entry.standsAlone]
    simp [search, reached_cons_of_rejected hr, hi, Entry.standsAlone, Entry.line]

lemma checkClosing_eq_search (s : Site) (pattern : String) :
    checkClosing s pattern = search [⟨s, pattern, hasBackreference pattern.toList⟩] := by
  rw [checkClosing]
  cases h : hasBackreference pattern.toList with
  | false => exact check_eq_search s pattern
  | true => rfl

mutual

theorem validateRule_eq_search (indices : List ℕ) (r : Rule) :
    validateRule indices r = search (ruleEntries indices r) := by
  cases r with
  | single name pattern captures => exact check_eq_search _ pattern
  | region name opening closing nested openingCaptures closingCaptures =>
    -- Both stop at the first rejected entry, so they agree piece by piece.
    rw [validateRule, ruleEntries, search_cons, search_cons ⟨_, closing, _⟩,
      ← check_eq_search, ← checkClosing_eq_search, validateNested_eq_search indices nested]

theorem validateNested_eq_search (indices : List ℕ) (nested : Option (List Rule)) :
    validateNested indices nested = search (nestedEntries indices nested) := by
  cases nested with
  | none => rfl
  | some rules => exact validateRules_eq_search indices 0 rules

theorem validateRules_eq_search (indices : List ℕ) (i : ℕ) (rules : List Rule) :
    validateRules indices i rules = search (rulesEntries indices i rules) := by
  cases rules with
  | nil => rfl
  | cons r rs =>
    rw [validateRules, rulesEntries, search_append, validateRule_eq_search (indices ++ [i]) r,
      validateRules_eq_search indices (i + 1) rs]

end

lemma exists_entry_of_report {g : Grammar} {r : Log.Record} (h : r ∈ g.validate.2) :
    r = g.accepted ∨ ∃ e ∈ g.entries, r = e.line := by
  rw [validate, validateRules_eq_search] at h
  rcases Verdict.mem_log_andThen h with h | h
  · obtain ⟨e, he, rfl⟩ := List.mem_map.mp h
    exact .inr ⟨e, mem_of_mem_reached he, rfl⟩
  · exact .inl (List.mem_singleton.mp h)

lemma exists_entry_of_refusal {g : Grammar} {i : Invalid} (h : g.validate.1 = .error i) :
    ∃ e ∈ g.entries, i.site = e.site ∧ i.pattern = e.pattern := by
  rw [validate, validateRules_eq_search] at h
  have hs : (search g.entries).1 = .error i := Verdict.error_of_andThen h rfl
  rw [search] at hs
  split at hs
  · cases hs
  · next j hj =>
    obtain ⟨e, he, hi⟩ := List.exists_of_findSome?_eq_some hj
    obtain ⟨hsite, hpattern, -⟩ := (e.invalid?_eq_some_iff j).mp hi
    obtain rfl := Except.error.inj hs
    exact ⟨e, (List.mem_filter.mp he).1, hsite, hpattern⟩

lemma origin_of_mem_validate {g : Grammar} {r : Log.Record} (h : r ∈ g.validate.2) :
    r.origin = Log.validation := by
  rcases exists_entry_of_report h with rfl | ⟨e, -, rfl⟩
  · rfl
  · rw [Entry.line]
    split <;> rfl

def standalone (g : Grammar) : List Entry := g.entries.filter (·.standsAlone)

/-- Validation succeeds if and only if every pattern that stands alone compiles. Otherwise it tells of
the first that does not. It reports every entry that it reaches, and the number of rules at the end of a
success. -/
theorem validate_first_failure (g : Grammar) :
    (g.validate.1 = .ok () ↔ ∀ e ∈ g.standalone, ∃ p, Pattern.compile e.pattern.toList = .ok p) ∧
      (∀ i, g.validate.1 = .error i ↔ ∃ before e after, g.standalone = before ++ e :: after ∧
        (∀ b ∈ before, ∃ p, Pattern.compile b.pattern.toList = .ok p) ∧ i.site = e.site ∧
        i.pattern = e.pattern ∧ Pattern.compile e.pattern.toList = .error i.fault) ∧
      g.validate.2 = (reached g.entries).map (·.line) ++
        match g.validate.1 with
        | .ok () => [g.accepted]
        | .error _ => [] := by
  have hv : g.validate = (search g.entries).andThen fun _ => (.ok (), [g.accepted]) := by
    rw [validate, validateRules_eq_search]
    rfl
  have hall : (∀ e ∈ g.standalone, ∃ p, Pattern.compile e.pattern.toList = .ok p) ↔
      g.standalone.findSome? (·.invalid?) = none := by
    simp only [List.findSome?_eq_none_iff, Entry.invalid?_eq_none_iff]
  have hfirst (i : Invalid) : (∃ before e after, g.standalone = before ++ e :: after ∧
      (∀ b ∈ before, ∃ p, Pattern.compile b.pattern.toList = .ok p) ∧ i.site = e.site ∧
      i.pattern = e.pattern ∧ Pattern.compile e.pattern.toList = .error i.fault) ↔
      g.standalone.findSome? (·.invalid?) = some i := by
    simp only [List.findSome?_eq_some_iff, Entry.invalid?_eq_some_iff, Entry.invalid?_eq_none_iff]
    constructor
    · rintro ⟨before, e, after, hs, hb, hi⟩
      exact ⟨before, e, after, hs, hi, hb⟩
    · rintro ⟨before, e, after, hs, hi, hb⟩
      exact ⟨before, e, after, hs, hb, hi⟩
  simp only [hall, hfirst]
  rw [hv, search, ← standalone]
  cases g.standalone.findSome? (·.invalid?) with
  | none => simp [Verdict.andThen]
  | some i => simp [Verdict.andThen, eq_comm]

end Highlight.Grammar
