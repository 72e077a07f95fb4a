import Highlight.Proofs.Grammar.Fields
import Highlight.Proofs.Json.Tree

/-! Which values are rules, and which rules they are. Records are objects without repeated keys, so a
member is told by its being there; other members and the order of members do not count. -/

namespace Highlight.Json

abbrev Members := List (String × Value)

def DistinctKeys (ms : Members) : Prop := (ms.map (·.1)).Nodup

def ReadsOptional {α : Type} (ms : Members) (key : String) (reads : Value → α → Prop) :
    Option α → Prop
  | none => (∀ v, (key, v) ∉ ms) ∨ (key, .null) ∈ ms
  | some a => ∃ v, (key, v) ∈ ms ∧ reads v a

def ReadsScope (v : Value) (scope : String) : Prop :=
  ∃ ms, v = .object ms ∧ ("name", .text scope) ∈ ms

def ReadsLabel (m : String × Value) (label : String × String) : Prop :=
  m.1 = label.1 ∧ ReadsScope m.2 label.2

def ReadsCaptures (v : Value) (c : Captures) : Prop :=
  ∃ ms labels, v = .object ms ∧ List.Forall₂ ReadsLabel ms labels ∧ c = Captures.ofList labels

def ReadsSingle (ms : Members) (r : Rule) : Prop :=
  ∃ name pattern captures, ("name", .text name) ∈ ms ∧ ("match", .text pattern) ∈ ms ∧
    ReadsOptional ms "captures" ReadsCaptures captures ∧ r = .single name pattern captures

mutual

inductive ReadsRule : Value → Rule → Prop
  | single {ms : Members} {r : Rule} : ReadsSingle ms r → ReadsRule (.object ms) r
  | region {ms : Members} {name opening closing : String} {nested : Option (List Rule)}
      {openingCaptures closingCaptures : Option Captures} : (∀ r, ¬ ReadsSingle ms r) →
      ("name", .text name) ∈ ms → ("begin", .text opening) ∈ ms → ("end", .text closing) ∈ ms →
      ReadsNested ms nested → ReadsOptional ms "beginCaptures" ReadsCaptures openingCaptures →
      ReadsOptional ms "endCaptures" ReadsCaptures closingCaptures →
      ReadsRule (.object ms) (.region name opening closing nested openingCaptures closingCaptures)

inductive ReadsNested : Members → Option (List Rule) → Prop
  | absent {ms : Members} : (∀ v, ("patterns", v) ∉ ms) → ReadsNested ms none
  | null {ms : Members} : ("patterns", .null) ∈ ms → ReadsNested ms none
  | array {ms : Members} {vs : List Value} {rs : List Rule} : ("patterns", .array vs) ∈ ms →
      ReadsRules vs rs → ReadsNested ms (some rs)

inductive ReadsRules : List Value → List Rule → Prop
  | nil : ReadsRules [] []
  | cons {v : Value} {vs : List Value} {r : Rule} {rs : List Rule} : ReadsRule v r →
      ReadsRules vs rs → ReadsRules (v :: vs) (r :: rs)

end

/-! ### Records without repeated keys -/

def TidyScope : Value → Prop
  | .array _ => False
  | .object ms => DistinctKeys ms
  | _ => True

def TidyCaptures (ms : Members) (key : String) : Prop :=
  ∀ cs, (key, .object cs) ∈ ms → ∀ c ∈ cs, TidyScope c.2

inductive TidyRule : Value → Prop
  | scalar {v : Value} {x : Scalar} : v.scalar? = some x → TidyRule v
  | object {ms : Members} : DistinctKeys ms →
      (∀ name pattern, ("name", .text name) ∈ ms → ("match", .text pattern) ∈ ms →
        TidyCaptures ms "captures") →
      ((∀ r, ¬ ReadsSingle ms r) → TidyCaptures ms "beginCaptures") →
      ((∀ r, ¬ ReadsSingle ms r) → TidyCaptures ms "endCaptures") →
      ((∀ r, ¬ ReadsSingle ms r) → ∀ vs, ("patterns", .array vs) ∈ ms → ∀ v ∈ vs, TidyRule v) →
      TidyRule (.object ms)

/-! ### Members by their keys -/

def treeMembers (ms : Members) : List (String × Tree) := ms.map fun m => (m.1, m.2.tree)

lemma tree_object (ms : Members) : (Value.object ms).tree = .record (textKeys (treeMembers ms)) := by
  have hm : Value.memberTrees ms = textKeys (treeMembers ms) := by
    induction ms with
    | nil => rfl
    | cons m ms ih =>
      rw [Value.memberTrees, ih]
      rfl
  rw [Value.tree, hm]

lemma text?_tree_iff (v : Value) (s : String) : v.tree.text? = some s ↔ v = .text s := by
  cases v with
  | number x => cases x <;> simp [Value.tree, Scalar.tree, Tree.text?]
  | null | boolean | text | array | object => simp [Value.tree, Tree.text?]

section Slots

variable {α : Type} {ms : Members} (h : DistinctKeys ms) (key : String)

include h

lemma nodup_treeMembers : ((treeMembers ms).map (·.1)).Nodup := by
  have hk : (treeMembers ms).map (·.1) = ms.map (·.1) := by simp [treeMembers]
  rwa [hk]

lemma slot_absent_iff (read : Tree → Option α) :
    slot key read none (treeMembers ms) = some none ↔ ∀ v, (key, v) ∉ ms := by
  rw [slot_eq_absent_iff (nodup_treeMembers h)]
  simp [treeMembers]

lemma slot_filled_iff (read : Tree → Option α) (a : α) :
    slot key read none (treeMembers ms) = some (some a) ↔
      ∃ v, (key, v) ∈ ms ∧ read v.tree = some a := by
  rw [slot_eq_filled_iff (nodup_treeMembers h)]
  simp [treeMembers]

lemma slot_text_iff (s : String) :
    slot key Tree.text? none (treeMembers ms) = some (some s) ↔ (key, .text s) ∈ ms := by
  simp [slot_filled_iff h, text?_tree_iff]

end Slots

/-! ### Captures -/

lemma scope?_iff {v : Value} (h : TidyScope v) (scope : String) :
    Captures.scope? v.tree = some scope ↔ ReadsScope v scope := by
  cases v with
  | array vs => exact h.elim
  | object ms =>
    have hd : DistinctKeys ms := h
    rw [tree_object, Captures.scope?, Captures.scopeMembers_textKeys, Option.join_eq_some_iff,
      slot_text_iff hd]
    simp [ReadsScope]
  | number x => cases x <;> simp [Value.tree, Scalar.tree, Captures.scope?, ReadsScope]
  | null | boolean | text => simp [Value.tree, Captures.scope?, ReadsScope]

lemma ofMembers_iff {ms : Members} (h : ∀ m ∈ ms, TidyScope m.2) (done c : Captures) :
    Captures.ofMembers done (textKeys (treeMembers ms)) = some c ↔
      ∃ labels, List.Forall₂ ReadsLabel ms labels ∧
        c = labels.foldl (fun c l => c.insert l.1 l.2) done := by
  induction ms generalizing done with
  | nil =>
    constructor
    · rintro ⟨⟩
      exact ⟨[], .nil, rfl⟩
    · rintro ⟨labels, hl, rfl⟩
      cases hl
      rfl
  | cons m ms ih =>
    obtain ⟨k, v⟩ := m
    have hc : textKeys (treeMembers ((k, v) :: ms)) = (.text k, v.tree) :: textKeys (treeMembers ms) :=
      rfl
    have hv (scope : String) := scope?_iff (h (k, v) (by simp)) scope
    have hms (done : Captures) := ih (fun m hm => h m (by simp [hm])) done
    rw [hc, Captures.ofMembers, Tree.text?]
    constructor
    · intro hs
      cases hscope : Captures.scope? v.tree with
      | none => simp [hscope] at hs
      | some scope =>
        simp only [hscope] at hs
        obtain ⟨labels, hl, rfl⟩ := (hms _).mp hs
        exact ⟨(k, scope) :: labels, .cons ⟨rfl, (hv scope).mp hscope⟩ hl, rfl⟩
    · rintro ⟨labels, hl, rfl⟩
      cases hl with
      | @cons _ l _ labels hl hls =>
        obtain ⟨rfl, hl⟩ := hl
        simp only [(hv _).mpr hl]
        exact (hms _).mpr ⟨labels, hls, rfl⟩

lemma optional?_null_iff (v : Value) : Captures.optional? v.tree = some none ↔ v = .null := by
  cases v with
  | number x => cases x <;> simp [Value.tree, Scalar.tree, Captures.optional?]
  | null | boolean | text | array | object => simp [Value.tree, Captures.optional?]

lemma optional?_captures_iff {v : Value} (h : ∀ ms, v = .object ms → ∀ m ∈ ms, TidyScope m.2)
    (c : Captures) : Captures.optional? v.tree = some (some c) ↔ ReadsCaptures v c := by
  cases v with
  | object ms =>
    rw [tree_object, Captures.optional?]
    · simp only [Captures.ofTree?, Option.map_eq_some_iff, Option.some.injEq, exists_eq_right,
        ofMembers_iff (h ms rfl)]
      simp [ReadsCaptures, Captures.ofList]
    · simp
  | number x =>
    cases x <;> simp [Value.tree, Scalar.tree, Captures.optional?, Captures.ofTree?, ReadsCaptures]
  | null | boolean | text | array =>
    simp [Value.tree, Captures.optional?, Captures.ofTree?, ReadsCaptures]

lemma readsOptional_iff {ms : Members} (h : DistinctKeys ms) {key : String} (hc : TidyCaptures ms key)
    (c : Option Captures) :
    (∃ x, slot key Captures.optional? none (treeMembers ms) = some x ∧ x.join = c) ↔
      ReadsOptional ms key ReadsCaptures c := by
  have hv {v : Value} (hm : (key, v) ∈ ms) (c : Captures) :
      Captures.optional? v.tree = some (some c) ↔ ReadsCaptures v c :=
    optional?_captures_iff (fun cs hcs => hc cs (hcs ▸ hm)) c
  cases c with
  | none =>
    constructor
    · rintro ⟨x, hx, hj⟩
      rcases x with _ | _ | c
      · exact .inl ((slot_absent_iff h key _).mp hx)
      · obtain ⟨v, hm, hn⟩ := (slot_filled_iff h key _ _).mp hx
        obtain rfl := (optional?_null_iff v).mp hn
        exact .inr hm
      · cases hj
    · rintro (ha | hn)
      · exact ⟨none, (slot_absent_iff h key _).mpr ha, rfl⟩
      · exact ⟨some none, (slot_filled_iff h key _ _).mpr ⟨.null, hn, rfl⟩, rfl⟩
  | some c =>
    constructor
    · rintro ⟨x, hx, hj⟩
      obtain rfl := Option.join_eq_some_iff.mp hj
      obtain ⟨v, hm, hr⟩ := (slot_filled_iff h key _ _).mp hx
      exact ⟨v, hm, (hv hm c).mp hr⟩
    · rintro ⟨v, hm, hr⟩
      exact ⟨some (some c), (slot_filled_iff h key _ _).mpr ⟨v, hm, (hv hm c).mpr hr⟩, rfl⟩

/-! ### Rules -/

lemma single_rule?_iff (f : Rule.SingleFields) (r : Rule) : f.rule? = some r ↔
    ∃ name pattern, f.name = some name ∧ f.pattern = some pattern ∧
      r = .single name pattern f.captures.join := by
  obtain ⟨name, pattern, captures⟩ := f
  cases name <;> cases pattern <;> simp [Rule.SingleFields.rule?, eq_comm]

lemma region_rule?_iff (f : Rule.RegionFields) (r : Rule) : f.rule? = some r ↔
    ∃ name opening closing, f.name = some name ∧ f.opening = some opening ∧ f.closing = some closing ∧
      r = .region name opening closing f.patterns.join f.openingCaptures.join
        f.closingCaptures.join := by
  obtain ⟨name, opening, closing, patterns, openingCaptures, closingCaptures⟩ := f
  cases name <;> cases opening <;> cases closing <;> simp [Rule.RegionFields.rule?, eq_comm]

lemma single?_iff {ms : Members} (h : DistinctKeys ms)
    (hc : ∀ name pattern, ("name", .text name) ∈ ms → ("match", .text pattern) ∈ ms →
      TidyCaptures ms "captures") (r : Rule) :
    Rule.single? (.record (textKeys (treeMembers ms))) = some r ↔ ReadsSingle ms r := by
  rw [Rule.single?, Rule.setAll_textKeys, Option.bind_eq_some_iff]
  constructor
  · rintro ⟨f, hf, hr⟩
    obtain ⟨name, pattern, hname, hpattern, rfl⟩ := (single_rule?_iff f r).mp hr
    simp only [Rule.SingleFields.after, Option.bind_eq_some_iff, Option.map_eq_some_iff] at hf
    obtain ⟨n, hn, p, hp, c, hx, rfl⟩ := hf
    obtain ⟨rfl, rfl⟩ : n = some name ∧ p = some pattern := ⟨hname, hpattern⟩
    rw [slot_text_iff h] at hn hp
    exact ⟨name, pattern, c.join, hn, hp, (readsOptional_iff h (hc _ _ hn hp) _).mp ⟨c, hx, rfl⟩, rfl⟩
  · rintro ⟨name, pattern, captures, hn, hp, hx, rfl⟩
    obtain ⟨c, hslot, rfl⟩ := (readsOptional_iff h (hc _ _ hn hp) _).mpr hx
    refine ⟨⟨some name, some pattern, c⟩, ?_, rfl⟩
    simp only [Rule.SingleFields.after, (slot_text_iff h _ _).mpr hn, (slot_text_iff h _ _).mpr hp,
      hslot, Option.bind_some, Option.map_some]

lemma ofTrees?_iff {vs : List Value}
    (h : ∀ v ∈ vs, ∀ r, Rule.ofTree? v.tree = some r ↔ ReadsRule v r) (rs : List Rule) :
    Rule.ofTrees? (Value.trees vs) = some rs ↔ ReadsRules vs rs := by
  induction vs generalizing rs with
  | nil =>
    constructor
    · rintro ⟨⟩
      exact .nil
    · rintro ⟨⟩
      rfl
  | cons v vs ih =>
    have hv := h v (by simp)
    have hvs := ih fun u hu => h u (by simp [hu])
    rw [Value.trees, Rule.ofTrees?]
    constructor
    · intro hs
      cases hr : Rule.ofTree? v.tree with
      | none => simp [hr] at hs
      | some r =>
        simp only [hr, Option.map_eq_some_iff] at hs
        obtain ⟨us, hus, rfl⟩ := hs
        exact .cons ((hv r).mp hr) ((hvs us).mp hus)
    · intro hs
      cases hs with
      | cons hr hrs => simp [(hv _).mpr hr, (hvs _).mpr hrs]

section Nested

variable {ms : Members} (h : DistinctKeys ms)
  (hn : ∀ vs, ("patterns", .array vs) ∈ ms → ∀ v ∈ vs, ∀ r,
    Rule.ofTree? v.tree = some r ↔ ReadsRule v r)

include h hn

lemma readsNested_iff (nested : Option (List Rule)) :
    (∃ x, slot "patterns" Rule.nested? none (treeMembers ms) = some x ∧ x.join = nested) ↔
      ReadsNested ms nested := by
  constructor
  · rintro ⟨x, hx, rfl⟩
    rcases x with _ | x
    · exact .absent ((slot_absent_iff h _ _).mp hx)
    · obtain ⟨v, hm, hr⟩ := (slot_filled_iff h _ _ _).mp hx
      cases v with
      | null =>
        simp only [Value.tree, Rule.nested?, Option.some.injEq] at hr
        subst hr
        exact .null hm
      | array vs =>
        simp only [Value.tree, Rule.nested?, Option.map_eq_some_iff] at hr
        obtain ⟨rs, hrs, rfl⟩ := hr
        exact .array hm ((ofTrees?_iff (hn vs hm) rs).mp hrs)
      | number y => cases y <;> simp [Value.tree, Scalar.tree, Rule.nested?] at hr
      | boolean | text | object => simp [Value.tree, Rule.nested?] at hr
  · intro hr
    cases hr with
    | absent ha => exact ⟨none, (slot_absent_iff h _ _).mpr ha, rfl⟩
    | null hm => exact ⟨some none, (slot_filled_iff h _ _ _).mpr ⟨_, hm, rfl⟩, rfl⟩
    | @array _ vs rs hm hrs =>
      refine ⟨some (some rs), (slot_filled_iff h _ _ _).mpr ⟨_, hm, ?_⟩, rfl⟩
      rw [Value.tree, Rule.nested?, (ofTrees?_iff (hn vs hm) rs).mpr hrs]
      rfl

lemma regionMembers_iff (hs : ∀ r, ¬ ReadsSingle ms r) (ho : TidyCaptures ms "beginCaptures")
    (hc : TidyCaptures ms "endCaptures") (r : Rule) :
    (Rule.regionMembers {} (textKeys (treeMembers ms))).bind (·.rule?) = some r ↔
      ReadsRule (.object ms) r := by
  rw [Rule.regionMembers_textKeys, Option.bind_eq_some_iff]
  constructor
  · rintro ⟨f, hf, hr⟩
    obtain ⟨name, opening, closing, hname, hopening, hclosing, rfl⟩ := (region_rule?_iff f r).mp hr
    simp only [Rule.RegionFields.after, Option.bind_eq_some_iff, Option.map_eq_some_iff] at hf
    obtain ⟨n, hn', o, ho', e, he', p, hp, oc, hoc, cc, hcc, rfl⟩ := hf
    obtain ⟨rfl, rfl, rfl⟩ : n = some name ∧ o = some opening ∧ e = some closing :=
      ⟨hname, hopening, hclosing⟩
    rw [slot_text_iff h] at hn' ho' he'
    exact .region hs hn' ho' he' ((readsNested_iff h hn _).mp ⟨p, hp, rfl⟩)
      ((readsOptional_iff h ho _).mp ⟨oc, hoc, rfl⟩) ((readsOptional_iff h hc _).mp ⟨cc, hcc, rfl⟩)
  · intro hr
    cases hr with
    | single hr => exact (hs _ hr).elim
    | region _ hname hopening hclosing hp hoc hcc =>
      obtain ⟨p, hslot, rfl⟩ := (readsNested_iff h hn _).mpr hp
      obtain ⟨oc, hoslot, rfl⟩ := (readsOptional_iff h ho _).mpr hoc
      obtain ⟨cc, hcslot, rfl⟩ := (readsOptional_iff h hc _).mpr hcc
      refine ⟨⟨some _, some _, some _, p, oc, cc⟩, ?_, rfl⟩
      simp only [Rule.RegionFields.after, (slot_text_iff h _ _).mpr hname,
        (slot_text_iff h _ _).mpr hopening, (slot_text_iff h _ _).mpr hclosing, hslot,
        hoslot, hcslot, Option.bind_some, Option.map_some]

end Nested

theorem ofTree?_iff {v : Value} (h : TidyRule v) (r : Rule) :
    Rule.ofTree? v.tree = some r ↔ ReadsRule v r := by
  induction h generalizing r with
  | @scalar v x hx =>
    have hn : ¬ ReadsRule v r := by
      rintro (_ | _) <;> cases hx
    cases v with
    | array | object => cases hx
    | number y => cases y <;> simp [Value.tree, Scalar.tree, Rule.ofTree?, hn]
    | null | boolean | text => simp [Value.tree, Rule.ofTree?, hn]
  | @object ms hd hc ho he _ ih =>
    have hsingle := single?_iff hd hc
    rw [tree_object, Rule.ofTree?, Option.orElse_eq_orElse]
    -- A region is looked for only where no single match is read.
    by_cases hs : ∃ r, ReadsSingle ms r
    · obtain ⟨s, hs⟩ := hs
      rw [(hsingle s).mpr hs, Option.orElse_some]
      constructor
      · rintro ⟨⟩
        exact .single hs
      · intro hr
        cases hr with
        | single hr => exact ((hsingle s).mpr hs).symm.trans ((hsingle r).mpr hr)
        | region hn => exact (hn s hs).elim
    · have hn : ∀ r, ¬ ReadsSingle ms r := fun r hr => hs ⟨r, hr⟩
      have hnone : Rule.single? (.record (textKeys (treeMembers ms))) = none :=
        Option.eq_none_iff_forall_ne_some.mpr fun r hr => hn r ((hsingle r).mp hr)
      rw [hnone, Option.orElse_none]
      exact regionMembers_iff hd (ih hn) hn (ho hn) (he hn) r

end Highlight.Json
