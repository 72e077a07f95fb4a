import Highlight.Failure
import Highlight.Proofs.Json.Acceptance
import Highlight.Proofs.PropertyList.Decoding

/-! The two formats agree: whatever tree is written in both, the same grammar is read from both, or none
from either. -/

namespace Highlight

variable {α σ τ : Type}

lemma slot_congr {key : String} {read read' : τ → Option α} {ms : List (String × τ)}
    (h : ∀ v, (key, v) ∈ ms → read v = read' v) (known : Option α) :
    slot key read known ms = slot key read' known ms := by
  induction ms generalizing known with
  | nil => rfl
  | cons m ms ih =>
    obtain ⟨k, v⟩ := m
    have hms (known : Option α) := ih (fun u hu => h u (by simp [hu])) known
    rw [slot, slot]
    by_cases hk : k = key
    · subst hk
      simp only [h v (by simp), hms]
    · simp only [if_neg hk, hms]

namespace Document

open Json

lemma values_eq_map (ds : List Document) : values ds = ds.map value := by
  induction ds with
  | nil => rfl
  | cons d ds ih => rw [values, ih, List.map_cons]

lemma memberValues_eq_map (ms : List (String × Document)) :
    memberValues ms = ms.map fun m => (m.1, m.2.value) := by
  induction ms with
  | nil => rfl
  | cons m ms ih => rw [memberValues, ih, List.map_cons]

lemma itemsOf_toOption {f : Value → Except (List Step) α} {g : Tree → Option α} {ds : List Document}
    (h : ∀ d ∈ ds, (f d.value).toOption = g d.tree) (i : ℕ) :
    (itemsOf f i (values ds)).toOption = (trees ds).mapM g := by
  induction ds generalizing i with
  | nil => rfl
  | cons d ds ih =>
    have hds := ih (fun e he => h e (by simp [he])) (i + 1)
    rw [values, trees, itemsOf, List.mapM_cons, ← h d (by simp), ← hds]
    cases f d.value with
    | error p => rfl
    | ok a => cases itemsOf f (i + 1) (values ds) <;> rfl

lemma arrayOf_toOption {f : Value → Except (List Step) α} {g : Tree → Option α} {d : Document}
    (h : ∀ ds, d = .list ds → ∀ e ∈ ds, (f e.value).toOption = g e.tree) :
    (arrayOf f d.value).toOption = d.tree.items? g := by
  cases d with
  | text s => rfl
  | record ms => rfl
  | list ds => exact itemsOf_toOption (h ds rfl) 0

lemma textOf_toOption (d : Document) : (textOf d.value).toOption = d.tree.text? := by
  cases d <;> rfl

lemma ruleOf_toOption {depth : ℕ} {d : Document} (h : d.value.depth ≤ depth) :
    (ruleOf depth d.value).toOption = Rule.ofTree? d.tree := by
  rw [ruleOf, treeOf_of_depth_le h, tree_value]
  simp only [Except.bind]
  cases Rule.ofTree? d.tree <;> rfl

lemma depth_lt_of_mem_record {k : String} {d : Document} {ms : List (String × Document)}
    (h : (k, d) ∈ ms) : d.value.depth < (Document.record ms).value.depth := by
  have hm : (k, d.value) ∈ memberValues ms := by
    rw [memberValues_eq_map]
    exact List.mem_map.mpr ⟨_, h, rfl⟩
  exact Nat.lt_succ_of_le (depth_le_of_mem_members hm)

lemma depth_lt_of_mem_list {d : Document} {ds : List Document} (h : d ∈ ds) :
    d.value.depth < (Document.list ds).value.depth := by
  have hm : d.value ∈ values ds := by
    rw [values_eq_map]
    exact List.mem_map_of_mem h
  exact Nat.lt_succ_of_le (depth_le_of_mem_items hm)

lemma fieldsAfter_memberValues {ms : List (String × Document)}
    (h : (Document.record ms).value.depth ≤ depthLimit) :
    fieldsAfter {} (memberValues ms) = Grammar.Fields.after {} (memberTrees ms) := by
  have htypes (d : Document) : (arrayOf textOf d.value).toOption = d.tree.items? Tree.text? :=
    arrayOf_toOption fun _ _ e _ => textOf_toOption e
  -- The brackets of the grammar and of its patterns are open around each rule.
  have hpatterns (d : Document) (hd : ("patterns", d) ∈ ms) :
      (arrayOf (ruleOf (depthLimit - 2)) d.value).toOption = d.tree.items? Rule.ofTree? := by
    refine arrayOf_toOption fun ds hds e he => ruleOf_toOption ?_
    have hms := depth_lt_of_mem_record hd
    rw [hds] at hms
    have hes := depth_lt_of_mem_list he
    omega
  simp only [fieldsAfter, Grammar.Fields.after, memberValues_eq_map, memberTrees_eq_map, slot_map,
    textOf_toOption, htypes]
  rw [slot_congr hpatterns]

lemma grammarOf_toOption {d : Document} (h : d.value.depth ≤ depthLimit) :
    (grammarOf d.value).toOption = d.grammar? := by
  cases d with
  | text s => rfl
  | list ds => rfl
  | record ms =>
    rw [value, grammarOf, toOption_bind, membersOf_toOption, fieldsAfter_memberValues h, grammar?]
    congr
    funext f
    cases f.grammar <;> rfl

end Document

namespace Grammar

open Bytes Document Json

lemma ofJson_spelled {ms : List (String × Document)} (hd : (Document.record ms).value.depth ≤ depthLimit)
    {w b w' : Bytes} (hw : Blank w) (hb : Spells (Document.record ms).value b) (hw' : Blank w') :
    (ofJson (w ++ (b ++ w'))).toOption = (Document.record ms).grammar? := by
  have hv : ∀ vs, (Document.record ms).value ≠ .array vs := by
    intro vs hvs
    cases hvs
  rw [← grammarOf_toOption hd]
  apply Option.ext
  intro g
  rw [toOption_eq_some_iff, toOption_eq_some_iff, ofJson_eq_ok_iff hv hw hb hw']

lemma ofBytes_toOption (f : Format) (document : Bytes) : (ofBytes f document).toOption =
    match f with
    | .propertyList => (ofPropertyList document).toOption
    | .json => (ofJson document).toOption := by
  cases f with
  | propertyList => rw [ofBytes]; cases ofPropertyList document <;> rfl
  | json => rw [ofBytes]; cases ofJson document <;> rfl

/-- Of a tree that is written as JSON in any way, and as a property list with the members of its records
in any order, the same is read, be it a grammar or nothing. -/
theorem ofBytes_json_eq_propertyList {ms : List (String × Document)} {d : Document}
    (hs : Same (.record ms) d) (hd : (Document.record ms).value.depth ≤ 127) {w b w' : Bytes}
    (hw : Blank w) (hb : Spells (Document.record ms).value b) (hw' : Blank w') :
    (ofBytes .json (w ++ (b ++ w'))).toOption =
      (ofBytes .propertyList (ofChars (PropertyList.printed d))).toOption := by
  rw [ofBytes_toOption, ofBytes_toOption, ofJson_spelled hd hw hb hw',
    PropertyList.ofPropertyList_printed, hs.grammar?_eq]

def shuffled : List (String × Document) :=
  [("patterns", .list [.record [("begin", .text "a"), ("match", .text "x"), ("name", .text "m")]]),
    ("fileTypes", .list [.text "t"]), ("scopeName", .text "s"), ("version", .record []), ("name", .text "g")]

lemma same_shuffled : Same (.record shuffled) (.record shuffled.reverse) := by
  have htexts {ms : List (String × Document)} (h : ∀ m ∈ ms, ∃ s, m.2 = .text s) :
      ∀ m ∈ ms, Same m.2 m.2 := by
    intro m hm
    obtain ⟨s, hs⟩ := h m hm
    rw [hs]
    exact .text s
  have hitem (d : Document) (h : Same d d) : Same (.list [d]) (.list [d]) := by
    refine .list rfl fun i hi _ => ?_
    obtain rfl : i = 0 := by simpa using hi
    exact h
  refine .perm (List.reverse_perm _).symm (by decide) fun m hm => ?_
  simp only [shuffled, List.mem_cons, List.not_mem_nil, or_false] at hm
  rcases hm with rfl | rfl | rfl | rfl | rfl
  · exact hitem _ (.perm .rfl (by decide) (htexts (by simp)))
  · exact hitem _ (.text "t")
  · exact .text "s"
  · exact .perm .rfl (by decide) (by simp)
  · exact .text "g"

theorem ofBytes_shuffled :
    (ofBytes .json ([] ++ (ofChars (indented 0 (.record shuffled)) ++ []))).toOption =
        (ofBytes .propertyList (ofChars (PropertyList.printed (.record shuffled.reverse)))).toOption ∧
      (ofBytes .propertyList (ofChars (PropertyList.printed (.record shuffled.reverse)))).toOption =
        some ⟨"g", "s", ["t"], [.single "m" "x" none]⟩ := by
  refine ⟨ofBytes_json_eq_propertyList same_shuffled (by decide) .nil (spells_indented _ 0) .nil, ?_⟩
  rw [ofBytes_toOption, PropertyList.ofPropertyList_printed]
  rfl

end Grammar

end Highlight
