import Highlight.Failure
import Highlight.Proofs.Json.Acceptance
import Mathlib.Data.List.Nodup
import Mathlib.Order.Bounds.Defs

/-! The path of the fault in a grammar of which only rules cannot be read. It leads to the first of these rules
and no further, since a rule is read whole before it is decided what kind it is. -/

namespace Highlight.Json

variable {α β : Type}

/-- No rule is read from a value, be it written as an object or as an array. -/
def Unreadable (v : Value) : Prop := Rule.ofTree? v.tree = none

lemma unreadable_iff {v : Value} (h : TidyRule v) : Unreadable v ↔ ∀ r, ¬ ReadsRule v r := by
  simp only [Unreadable, Option.eq_none_iff_forall_ne_some, ne_eq, ofTree?_iff h]

lemma ruleOf_eq {depth : ℕ} {v : Value} (h : v.depth ≤ depth) :
    ruleOf depth v = (Rule.ofTree? v.tree).elim (.error []) .ok := by
  rw [ruleOf, treeOf_of_depth_le h, Except.bind]
  cases Rule.ofTree? v.tree <;> rfl

/-! ### The first fault -/

lemma itemsOf_error_at {f : Value → Except (List Step) α} {vs : List Value} {i : ℕ} {v : Value} {p : List Step}
    (hi : vs[i]? = some v) (hv : f v = .error p) (hlt : ∀ j < i, ∀ u ∈ vs[j]?, ∃ a, f u = .ok a) (k : ℕ) :
    itemsOf f k vs = .error (.index (k + i) :: p) := by
  induction vs generalizing i k with
  | nil => cases hi
  | cons u us ih =>
    cases i with
    | zero =>
      obtain rfl : u = v := Option.some.inj hi
      rw [itemsOf, hv]
      rfl
    | succ i =>
      obtain ⟨a, ha⟩ := hlt 0 (Nat.succ_pos i) u rfl
      have hus := ih hi (fun j hj => hlt (j + 1) (Nat.succ_lt_succ hj)) (k + 1)
      rw [itemsOf, ha, hus, Nat.succ_add_eq_add_succ]
      rfl

lemma exists_of_membersOf_error {step : β → String → Value → Except (List Step) β} {state : β} {ms : Members}
    {p : List Step} (h : membersOf step state ms = .error p) :
    ∃ before k v after state', ms = before ++ (k, v) :: after ∧ membersOf step state before = .ok state' ∧
      step state' k v = .error p := by
  induction ms generalizing state with
  | nil => cases h
  | cons m ms ih =>
    obtain ⟨k, v⟩ := m
    rw [membersOf] at h
    cases hs : step state k v with
    | error q =>
      rw [hs] at h
      obtain rfl : q = p := Except.error.inj h
      exact ⟨[], k, v, ms, state, rfl, rfl, hs⟩
    | ok state₁ =>
      rw [hs] at h
      obtain ⟨before, k', v', after, state', rfl, hbefore, hstep⟩ := ih h
      refine ⟨(k, v) :: before, k', v', after, state', rfl, ?_, hstep⟩
      rw [membersOf, hs]
      exact hbefore

/-! ### Fields -/

lemma DistinctKeys.unique {ms : Members} (h : DistinctKeys ms) {k : String} {u v : Value} (hu : (k, u) ∈ ms)
    (hv : (k, v) ∈ ms) : u = v :=
  (Prod.mk.inj (List.inj_on_of_nodup_map h hu hv rfl)).2

lemma unfilled_of_membersOf {ms : Members} {f : Grammar.Fields} (h : membersOf memberOf {} ms = .ok f) :
    ("name" ∉ ms.map (·.1) → f.name = none) ∧ ("scopeName" ∉ ms.map (·.1) → f.scopeName = none) ∧
      ("fileTypes" ∉ ms.map (·.1) → f.fileTypes = none) ∧ ("patterns" ∉ ms.map (·.1) → f.patterns = none) := by
  have hf := membersOf_toOption {} ms
  rw [h, Except.toOption, eq_comm] at hf
  simp only [fieldsAfter, Option.bind_eq_some_iff, Option.map_eq_some_iff] at hf
  obtain ⟨name, hname, scopeName, hscope, fileTypes, htypes, patterns, hpatterns, rfl⟩ := hf
  have hnone {γ : Type} {key : String} {read : Value → Option γ} {known : Option γ}
      (hs : slot key read none ms = some known) (hk : key ∉ ms.map (·.1)) : known = none := by
    rw [slot_of_not_mem hk] at hs
    exact (Option.some.inj hs).symm
  exact ⟨hnone hname, hnone hscope, hnone htypes, hnone hpatterns⟩

lemma fieldOf_error {key : String} {known : Option α} {f : Value → Except (List Step) α} {put : α → Grammar.Fields}
    {v : Value} {p : List Step} (h : fieldOf key known f put v = .error p) (hknown : known = none) :
    ∃ q, f v = .error q ∧ p = .key key :: q := by
  subst hknown
  cases hf : f v with
  | ok a => simp [fieldOf, hf, Except.mapError, Except.map] at h
  | error q =>
    refine ⟨q, rfl, ?_⟩
    simpa [fieldOf, hf, Except.mapError, Except.map] using h.symm

lemma exists_misfit_of_membersOf {ms : Members} (hk : DistinctKeys ms) {p : List Step}
    (h : membersOf memberOf {} ms = .error p) : ∃ k v q, (k, v) ∈ ms ∧ p = .key k :: q ∧
      ((k = "name" ∨ k = "scopeName") ∧ textOf v = .error q ∨ k = "fileTypes" ∧ arrayOf textOf v = .error q ∨
        k = "patterns" ∧ arrayOf (ruleOf (depthLimit - 2)) v = .error q) := by
  obtain ⟨before, k, v, after, f, rfl, hbefore, hstep⟩ := exists_of_membersOf_error h
  have hnot : k ∉ before.map (·.1) := by
    rw [DistinctKeys, List.map_append, List.map_cons] at hk
    exact fun hm => (List.nodup_append.mp hk).2.2 k hm k (by simp) rfl
  obtain ⟨hname, hscope, htypes, hpatterns⟩ := unfilled_of_membersOf hbefore
  have hm : (k, v) ∈ before ++ (k, v) :: after := by simp
  unfold memberOf at hstep
  split_ifs at hstep with h₁ h₂ h₃ h₄
  · obtain ⟨q, hq, rfl⟩ := fieldOf_error hstep (hname (h₁ ▸ hnot))
    exact ⟨k, v, q, hm, rfl, .inl ⟨.inl h₁, hq⟩⟩
  · obtain ⟨q, hq, rfl⟩ := fieldOf_error hstep (hscope (h₂ ▸ hnot))
    exact ⟨k, v, q, hm, rfl, .inl ⟨.inr h₂, hq⟩⟩
  · obtain ⟨q, hq, rfl⟩ := fieldOf_error hstep (htypes (h₃ ▸ hnot))
    exact ⟨k, v, q, hm, rfl, .inr (.inl ⟨h₃, hq⟩)⟩
  · obtain ⟨q, hq, rfl⟩ := fieldOf_error hstep (hpatterns (h₄ ▸ hnot))
    exact ⟨k, v, q, hm, rfl, .inr (.inr ⟨h₄, hq⟩)⟩

end Highlight.Json

namespace Highlight.Grammar

open Bytes Json

lemma grammarOf_unreadable {ms : Members} {vs : List Value} {name scopeName : String} {fileTypes : List String}
    {i : ℕ} (hd : (Value.object ms).depth ≤ depthLimit) (hk : DistinctKeys ms) (hname : ("name", .text name) ∈ ms)
    (hscope : ("scopeName", .text scopeName) ∈ ms) (htypes : ("fileTypes", .array (fileTypes.map .text)) ∈ ms)
    (hpatterns : ("patterns", .array vs) ∈ ms) (hi : IsLeast {j | ∃ v ∈ vs[j]?, Unreadable v} i) :
    grammarOf (.object ms) = .error [.key "patterns", .index i] := by
  have hrule {u : Value} (hu : u ∈ vs) :
      ruleOf (depthLimit - 2) u = (Rule.ofTree? u.tree).elim (.error []) .ok := by
    refine ruleOf_eq ?_
    have hvs : Value.itemsDepth vs + 1 ≤ Value.membersDepth ms := depth_le_of_mem_members hpatterns
    have hle := depth_le_of_mem_items hu
    have hms : Value.membersDepth ms + 1 ≤ 127 := hd
    have hl : depthLimit - 2 = 125 := rfl
    omega
  have hrules : arrayOf (ruleOf (depthLimit - 2)) (.array vs) = .error [.index i] := by
    obtain ⟨⟨v, hv, hun⟩, hmin⟩ := hi
    have hfirst : ruleOf (depthLimit - 2) v = .error [] := by
      rw [hrule (List.mem_of_getElem? hv), hun]
      rfl
    rw [arrayOf, itemsOf_error_at hv hfirst (fun j hj u hu => ?_), Nat.zero_add]
    rw [hrule (List.mem_of_getElem? hu)]
    cases hr : Rule.ofTree? u.tree with
    | none => exact (Nat.not_le_of_lt hj (hmin ⟨u, hu, hr⟩)).elim
    | some r => exact ⟨r, rfl⟩
  have hfails : ∃ p, membersOf memberOf {} ms = .error p := by
    refine membersOf_error hpatterns (fun (f : Grammar.Fields) => ?_) {}
    cases hf : f.patterns <;> simp [memberOf, fieldOf, hf, hrules, Except.mapError, Except.map]
  obtain ⟨p, hp⟩ := hfails
  obtain ⟨k, v, q, hm, rfl, hmisfit⟩ := exists_misfit_of_membersOf hk hp
  rcases hmisfit with ⟨rfl | rfl, hq⟩ | ⟨rfl, hq⟩ | ⟨rfl, hq⟩
  · rw [hk.unique hm hname] at hq
    cases hq
  · rw [hk.unique hm hscope] at hq
    cases hq
  · rw [hk.unique hm htypes, (arrayOf_textOf_iff _ fileTypes).mpr rfl] at hq
    cases hq
  · rw [hk.unique hm hpatterns, hrules] at hq
    obtain rfl := Except.error.inj hq
    rw [grammarOf, hp]
    rfl

lemma ofBytes_json_of_grammarOf_error {v : Value} (hv : ∀ vs, v ≠ .array vs) {w b w' : Bytes} (hw : Blank w)
    (hb : Spells v b) (hw' : Blank w') {p : List Step} (h : grammarOf v = .error p) :
    ∃ fault, ofBytes .json (w ++ (b ++ w')) = .error (.json fault (w ++ (b ++ w'))) ∧ fault.path = p := by
  have hnil : Ends [] := by simp [Ends]
  have hr : Ends w' := by simpa using Ends.blank_append hw' hnil
  have hg := grammar_outcome hv hw hb hr
  rw [h] at hg
  rw [ofBytes, ofJson]
  cases hj : Json.grammar (w ++ (b ++ w')) with
  | error fault =>
    rw [hj] at hg
    exact ⟨fault, rfl, Except.error.inj hg⟩
  | ok r =>
    rw [hj] at hg
    cases hg

lemma pathText_rule (i : ℕ) : Json.pathText [.key "patterns", .index i] = s!"patterns[{i}]" := by
  have hparts : Json.pathText [.key "patterns", .index i] = "patterns" ++ ("[" ++ toString i ++ "]") := by
    simp [Json.pathText, Step.write]
    rfl
  rw [hparts, ← String.append_assoc, ← String.append_assoc]
  rfl

theorem unreadable_rule_path {ms : Members} {vs : List Value} {name scopeName : String} {fileTypes : List String}
    {w b w' : Bytes} {i : ℕ} (hw : Blank w) (hb : Spells (.object ms) b) (hw' : Blank w')
    (hd : (Value.object ms).depth ≤ 127) (hk : DistinctKeys ms) (hname : ("name", .text name) ∈ ms)
    (hscope : ("scopeName", .text scopeName) ∈ ms) (htypes : ("fileTypes", .array (fileTypes.map .text)) ∈ ms)
    (hpatterns : ("patterns", .array vs) ∈ ms) (hi : IsLeast {j | ∃ v ∈ vs[j]?, Unreadable v} i) :
    (∃ fault, ofBytes .json (w ++ (b ++ w')) = .error (.json fault (w ++ (b ++ w'))) ∧
        Json.pathText fault.path = s!"patterns[{i}]") ∧
      ∀ v ∈ vs, TidyRule v → (Unreadable v ↔ ∀ r, ¬ ReadsRule v r) := by
  refine ⟨?_, fun v _ => unreadable_iff⟩
  have hg := grammarOf_unreadable hd hk hname hscope htypes hpatterns hi
  obtain ⟨fault, hf, hpath⟩ := ofBytes_json_of_grammarOf_error (by simp) hw hb hw' hg
  exact ⟨fault, hf, by rw [hpath, pathText_rule]⟩

def misplaced : Document :=
  .record [("patterns", .list [
      .record [("match", .text "x"), ("name", .text "m")],
      .record [("end", .text "b"), ("begin", .text "a"), ("name", .text "r"), ("patterns", .list [
        .record [("name", .text "n"), ("match", .text "y"), ("captures", .record [("1", .text "c")])]])],
      .text "z"]),
    ("version", .text "1"), ("fileTypes", .list []), ("scopeName", .text "s"), ("name", .text "g")]

theorem unreadable_rule_path_nested : ∃ fault,
    ofBytes .json ([] ++ (ofChars (indented 0 misplaced) ++ [])) =
        .error (.json fault ([] ++ (ofChars (indented 0 misplaced) ++ []))) ∧
      Json.pathText fault.path = "patterns[1]" := by
  have hb := spells_indented misplaced 0
  simp only [misplaced, Document.value, Document.values, Document.memberValues] at hb
  have hm {ms : Members} {m : String × Value} (i : ℕ) (h : ms[i]? = some m) : m ∈ ms := List.mem_of_getElem? h
  have hread : ¬ Unreadable (.object [("match", .text "x"), ("name", .text "m")]) := Option.some_ne_none _
  have hleast {u v : Value} {vs : List Value} (hu : ¬ Unreadable u) (hv : Unreadable v) :
      IsLeast {j | ∃ w ∈ (u :: v :: vs)[j]?, Unreadable w} 1 := by
    refine ⟨⟨v, rfl, hv⟩, ?_⟩
    rintro j ⟨w, hw, hun⟩
    refine Nat.pos_of_ne_zero fun hj => ?_
    subst hj
    exact hu (Option.some.inj hw ▸ hun)
  exact (unreadable_rule_path .nil hb .nil (by decide) (by simp [DistinctKeys]) (hm 4 rfl) (hm 3 rfl)
    (hm (m := ("fileTypes", .array ([].map .text))) 2 rfl) (hm 0 rfl) (hleast hread rfl)).1

end Highlight.Grammar
