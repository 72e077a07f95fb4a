import Highlight.Grammar.Tree
import Mathlib.Tactic.Common
import Mathlib.Data.List.Basic

/-! The fields of a record. Filling them member by member is looking each of them up, if no key comes
twice. -/

namespace Highlight

open Rule.SingleFields (fill)

variable {α τ : Type}

def slot (key : String) (read : τ → Option α) (known : Option α) :
    List (String × τ) → Option (Option α)
  | [] => some known
  | (k, v) :: ms =>
    if k = key then (fill known (read v)).bind fun known => slot key read known ms
    else slot key read known ms

lemma slot_of_not_mem {key : String} {ms : List (String × τ)} (h : key ∉ ms.map (·.1))
    (read : τ → Option α) (known : Option α) : slot key read known ms = some known := by
  induction ms with
  | nil => rfl
  | cons m ms ih =>
    rw [List.map_cons, List.mem_cons, not_or] at h
    rw [slot, if_neg (Ne.symm h.1), ih h.2]

lemma slot_cons_self {key : String} {v : τ} {ms : List (String × τ)} (h : key ∉ ms.map (·.1))
    (read : τ → Option α) : slot key read none ((key, v) :: ms) = (read v).map some := by
  rw [slot, if_pos rfl]
  cases hv : read v with
  | none => rfl
  | some a => simp [fill, slot_of_not_mem h]

lemma slot_eq_absent_iff {ms : List (String × τ)} (h : (ms.map (·.1)).Nodup) (key : String)
    (read : τ → Option α) : slot key read none ms = some none ↔ ∀ v, (key, v) ∉ ms := by
  induction ms with
  | nil => simp [slot]
  | cons m ms ih =>
    obtain ⟨k, v⟩ := m
    rw [List.map_cons, List.nodup_cons] at h
    by_cases hk : k = key
    · subst hk
      have hv : (k, v) ∈ (k, v) :: ms := by simp
      rw [slot_cons_self h.1]
      constructor
      · intro hs
        cases hr : read v <;> simp [hr] at hs
      · exact fun hn => (hn v hv).elim
    · rw [slot, if_neg hk, ih h.2]
      simp [Ne.symm hk]

lemma slot_eq_filled_iff {ms : List (String × τ)} (h : (ms.map (·.1)).Nodup) (key : String)
    (read : τ → Option α) (a : α) :
    slot key read none ms = some (some a) ↔ ∃ v, (key, v) ∈ ms ∧ read v = some a := by
  induction ms with
  | nil => simp [slot]
  | cons m ms ih =>
    obtain ⟨k, v⟩ := m
    rw [List.map_cons, List.nodup_cons] at h
    by_cases hk : k = key
    · subst hk
      rw [slot_cons_self h.1]
      constructor
      · intro hs
        exact ⟨v, by simp, by simpa using hs⟩
      · rintro ⟨u, hu, hr⟩
        rcases List.mem_cons.mp hu with hu | hu
        · obtain rfl : u = v := by simpa using hu
          simp [hr]
        · exact (h.1 (List.mem_map.mpr ⟨(k, u), hu, rfl⟩)).elim
    · rw [slot, if_neg hk, ih h.2]
      simp [Ne.symm hk]

def textKeys (ms : List (String × Tree)) : List (Tree × Tree) := ms.map fun m => (.text m.1, m.2)

namespace Captures

lemma scopeMembers_textKeys (name : Option String) (ms : List (String × Tree)) :
    scopeMembers name (textKeys ms) = (slot "name" Tree.text? name ms).join := by
  induction ms generalizing name with
  | nil => rfl
  | cons m ms ih =>
    obtain ⟨k, v⟩ := m
    have hc : textKeys ((k, v) :: ms) = (.text k, v) :: textKeys ms := rfl
    by_cases hk : k = "name"
    · subst hk
      rw [hc, slot, if_pos rfl]
      cases name with
      | some s => rfl
      | none =>
        simp only [scopeMembers, show (Tree.text "name").field? ["name"] = some (some 0) by rfl, fill, ih]
        cases v.text? <;> rfl
    · have hf : (Tree.text k).field? ["name"] = some none := by
        simp [Tree.field?, Ne.symm hk]
      rw [hc, slot, if_neg hk, ← ih]
      simp only [scopeMembers, hf]

end Captures

namespace Rule

lemma fill_textKeys {F : Type} {names : List String} (set : F → Tree → ℕ → Option F)
    {fillAll : F → List (Tree × Tree) → Option F} {after : F → List (String × Tree) → Option F}
    (hnil : ∀ f, fillAll f [] = after f [])
    (hcons : ∀ f k v ms, fillAll f ((.text k, v) :: ms) =
      match names.idxOf? k with
      | some i => (set f v i).bind (fillAll · ms)
      | none => fillAll f ms)
    (hset : ∀ f v ms k i, names.idxOf? k = some i → (set f v i).bind (after · ms) = after f ((k, v) :: ms))
    (hunknown : ∀ f v ms k, names.idxOf? k = none → after f ((k, v) :: ms) = after f ms)
    (f : F) (ms : List (String × Tree)) : fillAll f (textKeys ms) = after f ms := by
  induction ms generalizing f with
  | nil => exact hnil f
  | cons m ms ih =>
    obtain ⟨k, v⟩ := m
    have hc : textKeys ((k, v) :: ms) = (.text k, v) :: textKeys ms := rfl
    rw [hc, hcons]
    cases hi : names.idxOf? k with
    | some i =>
      simp only [ih]
      exact hset f v ms k i hi
    | none =>
      simp only [ih]
      exact (hunknown f v ms k hi).symm

def SingleFields.after (f : SingleFields) (ms : List (String × Tree)) : Option SingleFields :=
  (slot "name" Tree.text? f.name ms).bind fun name =>
  (slot "match" Tree.text? f.pattern ms).bind fun pattern =>
  (slot "captures" Captures.optional? f.captures ms).map fun captures =>
    ⟨name, pattern, captures⟩

lemma SingleFields.after_set (f : SingleFields) (v : Tree) (ms : List (String × Tree)) {k : String}
    {i : ℕ} (hk : names.idxOf? k = some i) : (f.set v i).bind (·.after ms) = f.after ((k, v) :: ms) := by
  simp only [names, List.idxOf?_cons, List.idxOf?_nil, beq_iff_eq] at hk
  split_ifs at hk with h0 h1 h2
  · obtain ⟨rfl, rfl⟩ := And.intro h0 (Option.some.inj hk)
    simp only [set, after, slot]
    cases fill f.name v.text? <;> simp
  · obtain ⟨rfl, rfl⟩ := And.intro h1 (Option.some.inj hk)
    simp only [set, after, slot]
    cases fill f.pattern v.text? <;> simp
  · obtain ⟨rfl, rfl⟩ := And.intro h2 (Option.some.inj hk)
    simp only [set, after, slot]
    cases fill f.captures (Captures.optional? v) <;> simp
  · simp at hk

lemma SingleFields.after_unknown (f : SingleFields) (v : Tree) (ms : List (String × Tree)) {k : String}
    (hk : names.idxOf? k = none) : f.after ((k, v) :: ms) = f.after ms := by
  have h : k ≠ "name" ∧ k ≠ "match" ∧ k ≠ "captures" := by simpa [names] using hk
  simp only [after, slot, h, if_false]

lemma setAll_textKeys (f : SingleFields) (ms : List (String × Tree)) : f.setAll (textKeys ms) = f.after ms := by
  refine fill_textKeys SingleFields.set (fun f => rfl) (fun f k v ms => ?_)
    (fun f v ms k i => f.after_set v ms) (fun f v ms k => f.after_unknown v ms) f ms
  rw [SingleFields.setAll, Tree.field?]
  cases SingleFields.names.idxOf? k <;> rfl

def RegionFields.after (f : RegionFields) (ms : List (String × Tree)) : Option RegionFields :=
  (slot "name" Tree.text? f.name ms).bind fun name =>
  (slot "begin" Tree.text? f.opening ms).bind fun opening =>
  (slot "end" Tree.text? f.closing ms).bind fun closing =>
  (slot "patterns" nested? f.patterns ms).bind fun patterns =>
  (slot "beginCaptures" Captures.optional? f.openingCaptures ms).bind fun openingCaptures =>
  (slot "endCaptures" Captures.optional? f.closingCaptures ms).map fun closingCaptures =>
    ⟨name, opening, closing, patterns, openingCaptures, closingCaptures⟩

lemma RegionFields.after_set (f : RegionFields) (v : Tree) (ms : List (String × Tree)) {k : String}
    {i : ℕ} (hk : names.idxOf? k = some i) :
    (f.set v (nested? v) i).bind (·.after ms) = f.after ((k, v) :: ms) := by
  simp only [names, List.idxOf?_cons, List.idxOf?_nil, beq_iff_eq] at hk
  split_ifs at hk with h0 h1 h2 h3 h4 h5
  · obtain ⟨rfl, rfl⟩ := And.intro h0 (Option.some.inj hk)
    simp only [set, after, slot]
    cases fill f.name v.text? <;> simp
  · obtain ⟨rfl, rfl⟩ := And.intro h1 (Option.some.inj hk)
    simp only [set, after, slot]
    cases fill f.opening v.text? <;> simp
  · obtain ⟨rfl, rfl⟩ := And.intro h2 (Option.some.inj hk)
    simp only [set, after, slot]
    cases fill f.closing v.text? <;> simp
  · obtain ⟨rfl, rfl⟩ := And.intro h3 (Option.some.inj hk)
    simp only [set, after, slot]
    cases fill f.patterns (nested? v) <;> simp
  · obtain ⟨rfl, rfl⟩ := And.intro h4 (Option.some.inj hk)
    simp only [set, after, slot]
    cases fill f.openingCaptures (Captures.optional? v) <;> simp
  · obtain ⟨rfl, rfl⟩ := And.intro h5 (Option.some.inj hk)
    simp only [set, after, slot]
    cases fill f.closingCaptures (Captures.optional? v) <;> simp
  · simp at hk

lemma RegionFields.after_unknown (f : RegionFields) (v : Tree) (ms : List (String × Tree)) {k : String}
    (hk : names.idxOf? k = none) : f.after ((k, v) :: ms) = f.after ms := by
  have h : k ≠ "name" ∧ k ≠ "begin" ∧ k ≠ "end" ∧ k ≠ "patterns" ∧ k ≠ "beginCaptures" ∧
      k ≠ "endCaptures" := by simpa [names] using hk
  simp only [after, slot, h, if_false]

lemma regionMembers_textKeys (f : RegionFields) (ms : List (String × Tree)) :
    regionMembers f (textKeys ms) = f.after ms := by
  refine fill_textKeys (fun f v => f.set v (nested? v)) (fun f => rfl) (fun f k v ms => ?_)
    (fun f v ms k i => f.after_set v ms) (fun f v ms k => f.after_unknown v ms) f ms
  rw [regionMembers, Tree.field?]
  cases RegionFields.names.idxOf? k <;> rfl

end Rule

end Highlight
