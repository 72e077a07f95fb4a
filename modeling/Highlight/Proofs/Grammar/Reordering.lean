import Highlight.Grammar.Fields
import Highlight.Proofs.Grammar.Document
import Mathlib.Data.List.Forall2
import Mathlib.Data.List.Nodup
import Mathlib.Data.List.Perm.Subperm

/-! Documents that differ only in the order of the members of their records. Whatever a rule or a capture
is read from, the order of members does not count. -/

namespace Highlight

variable {α σ τ : Type}

/-! ### Members in another order -/

lemma slot_map (f : σ → τ) (key : String) (read : τ → Option α) (known : Option α)
    (ms : List (String × σ)) :
    slot key read known (ms.map fun m => (m.1, f m.2)) = slot key (fun v => read (f v)) known ms := by
  induction ms generalizing known with
  | nil => rfl
  | cons m ms ih =>
    rw [List.map_cons, slot, slot]
    simp only [ih]

lemma slot_of_mem {key : String} {v : τ} {ms : List (String × τ)} (hd : (ms.map (·.1)).Nodup)
    (hm : (key, v) ∈ ms) (read : τ → Option α) : slot key read none ms = (read v).map some := by
  induction ms with
  | nil => cases hm
  | cons m ms ih =>
    obtain ⟨k, u⟩ := m
    rw [List.map_cons, List.nodup_cons] at hd
    rcases List.mem_cons.mp hm with h | h
    · obtain ⟨rfl, rfl⟩ := Prod.mk.inj h
      exact slot_cons_self hd.1 read
    · have hk : k ≠ key := by
        rintro rfl
        exact hd.1 (List.mem_map.mpr ⟨(k, v), h, rfl⟩)
      rw [slot, if_neg hk, ih hd.2 h]

lemma slot_perm {ms ns : List (String × τ)} (h : ms.Perm ns) (hd : (ms.map (·.1)).Nodup) (key : String)
    (read : τ → Option α) : slot key read none ms = slot key read none ns := by
  have hd' : (ns.map (·.1)).Nodup := (h.map _).nodup_iff.mp hd
  by_cases hk : key ∈ ms.map (·.1)
  · obtain ⟨⟨k, v⟩, hm, rfl⟩ := List.mem_map.mp hk
    rw [slot_of_mem hd hm, slot_of_mem hd' (h.mem_iff.mp hm)]
  · have hk' : key ∉ ns.map (·.1) := fun hn => hk ((h.map _).mem_iff.mpr hn)
    rw [slot_of_not_mem hk, slot_of_not_mem hk']

namespace Captures

lemma insertEntry_comm {k l : String} (h : k ≠ l) (s t : String) (es : List (String × String)) :
    insertEntry k s (insertEntry l t es) = insertEntry l t (insertEntry k s es) := by
  have horder {a b : String} (hab : a ≠ b) : a < b ∨ b < a := by
    by_cases ha : a < b
    · exact .inl ha
    · exact .inr (Std.lt_of_le_of_ne (String.not_lt.mp ha) hab.symm)
  induction es with
  | nil =>
    rcases horder h with hk | hl
    · simp [insertEntry, hk, String.lt_asymm hk, h.symm]
    · simp [insertEntry, hl, String.lt_asymm hl, h]
  | cons e es ih =>
    obtain ⟨n, u⟩ := e
    grind [insertEntry, String.lt_asymm, String.lt_trans]

lemma insert_comm (c : Captures) {k l : String} (h : k ≠ l) (s t : String) :
    (c.insert l t).insert k s = (c.insert k s).insert l t := by
  have he := insertEntry_comm h s t c.entries
  simp only [insert, he]

def labelled (read : τ → Option String) (c : Captures) : List (String × τ) → Option Captures
  | [] => some c
  | (k, v) :: ms => (read v).bind fun s => labelled read (c.insert k s) ms

lemma labelled_map (f : σ → τ) (read : τ → Option String) (c : Captures) (ms : List (String × σ)) :
    labelled read c (ms.map fun m => (m.1, f m.2)) = labelled (fun v => read (f v)) c ms := by
  induction ms generalizing c with
  | nil => rfl
  | cons m ms ih =>
    rw [List.map_cons, labelled, labelled]
    simp only [ih]

lemma labelled_perm {ms ns : List (String × τ)} (h : ms.Perm ns) (hd : (ms.map (·.1)).Nodup)
    (read : τ → Option String) (c : Captures) : labelled read c ms = labelled read c ns := by
  induction h generalizing c with
  | nil => rfl
  | cons m _ ih =>
    rw [List.map_cons, List.nodup_cons] at hd
    simp only [labelled, ih hd.2]
  | swap m n ms =>
    have hk : n.1 ≠ m.1 := by
      rintro hk
      simp [hk] at hd
    simp only [labelled]
    cases read m.2 <;> cases read n.2 <;> simp [insert_comm c hk]
  | trans h _ ih ih' => rw [ih hd, ih' ((h.map _).nodup_iff.mp hd)]

lemma ofMembers_textKeys (c : Captures) (ms : List (String × Tree)) :
    ofMembers c (textKeys ms) = labelled scope? c ms := by
  induction ms generalizing c with
  | nil => rfl
  | cons m ms ih =>
    have hc : textKeys (m :: ms) = (.text m.1, m.2) :: textKeys ms := rfl
    rw [hc, ofMembers, labelled, Tree.text?]
    cases scope? m.2 with
    | none => rfl
    | some s => exact ih _

end Captures

/-! ### Values of which the same is read -/

namespace Tree

def items? (f : Tree → Option α) : Tree → Option (List α)
  | .array ts => ts.mapM f
  | _ => none

structure Alike (t u : Tree) : Prop where
  text : t.text? = u.text?
  texts : t.items? text? = u.items? text?
  scope : Captures.scope? t = Captures.scope? u
  captures : Captures.optional? t = Captures.optional? u
  rule : Rule.ofTree? t = Rule.ofTree? u
  rules : t.items? Rule.ofTree? = u.items? Rule.ofTree?
  nested : Rule.nested? t = Rule.nested? u

end Tree

namespace Rule

open Highlight.Tree (Alike)

variable {t u : Tree} {ts us : List Tree}

lemma SingleFields.set_congr (h : Alike t u) (f : SingleFields) (i : ℕ) : f.set t i = f.set u i := by
  unfold SingleFields.set
  rw [h.text, h.captures]

lemma SingleFields.setItems_congr (h : List.Forall₂ Alike ts us) (f : SingleFields) (i : ℕ) :
    f.setItems i ts = f.setItems i us := by
  induction h generalizing f i with
  | nil => rfl
  | cons hv _ ih => simp only [setItems, set_congr hv, ih]

lemma RegionFields.set_congr (h : Alike t u) (f : RegionFields) (nested : Option (Option (List Rule)))
    (i : ℕ) : f.set t nested i = f.set u nested i := by
  unfold RegionFields.set
  rw [h.text, h.captures]

lemma regionItems_congr (h : List.Forall₂ Alike ts us) (f : RegionFields) (i : ℕ) :
    regionItems f i ts = regionItems f i us := by
  induction h generalizing f i with
  | nil => rfl
  | cons hv _ ih => simp only [regionItems, RegionFields.set_congr hv, hv.nested, ih]

lemma ofTrees?_congr (h : List.Forall₂ Alike ts us) : ofTrees? ts = ofTrees? us := by
  induction h with
  | nil => rfl
  | cons hv _ ih => simp only [ofTrees?, hv.rule, ih]

end Rule

namespace Tree

lemma items?_congr {ts us : List Tree} (h : List.Forall₂ Alike ts us) (f : Tree → Option α)
    (hf : ∀ {t u}, Alike t u → f t = f u) : items? f (.array ts) = items? f (.array us) := by
  simp only [items?]
  induction h with
  | nil => rfl
  | cons hv _ ih => rw [List.mapM_cons, List.mapM_cons, hf hv, ih]

lemma Alike.array {ts us : List Tree} (h : List.Forall₂ Alike ts us) :
    Alike (.array ts) (.array us) where
  text := rfl
  texts := items?_congr h text? Alike.text
  scope := by
    rcases h with _ | ⟨hv, _ | _⟩
    · rfl
    · exact hv.text
    · rfl
  captures := rfl
  rule := by
    simp only [Rule.ofTree?, Rule.single?, Rule.SingleFields.setItems_congr h, Rule.regionItems_congr h]
  rules := items?_congr h Rule.ofTree? Alike.rule
  nested := by simp only [Rule.nested?, Rule.ofTrees?_congr h]

end Tree

def Grammar.Fields.after (f : Grammar.Fields) (ms : List (String × Tree)) : Option Grammar.Fields :=
  (slot "name" Tree.text? f.name ms).bind fun name =>
  (slot "scopeName" Tree.text? f.scopeName ms).bind fun scopeName =>
  (slot "fileTypes" (Tree.items? Tree.text?) f.fileTypes ms).bind fun fileTypes =>
  (slot "patterns" (Tree.items? Rule.ofTree?) f.patterns ms).map fun patterns =>
    ⟨name, scopeName, fileTypes, patterns⟩

namespace Tree

section Record

variable {ms ns : List (String × Tree)} (hd : (ms.map (·.1)).Nodup)
  (hk : (ms.map (·.1)).Perm (ns.map (·.1)))
  (h : ∀ k t u, (k, t) ∈ ms → (k, u) ∈ ns → Alike t u)

include hd hk h

lemma perm_members (read : Tree → α) (hr : ∀ {t u}, Alike t u → read t = read u) :
    (ms.map fun m => (m.1, read m.2)).Perm (ns.map fun m => (m.1, read m.2)) := by
  have hms : (ms.map fun m => (m.1, read m.2)).Nodup :=
    List.Nodup.of_map (·.1) (by rwa [List.map_map])
  have hlength : ms.length = ns.length := by simpa using hk.length_eq
  refine (hms.subperm ?_).perm_of_length_le (by simp [hlength])
  rintro ⟨k, a⟩ ha
  obtain ⟨⟨l, t⟩, hm, he⟩ := List.mem_map.mp ha
  obtain ⟨rfl, rfl⟩ := Prod.mk.inj he
  obtain ⟨⟨m, u⟩, hn, rfl⟩ := List.mem_map.mp (hk.mem_iff.mp (List.mem_map.mpr ⟨_, hm, rfl⟩))
  rw [hr (h m t u hm hn)]
  exact List.mem_map.mpr ⟨_, hn, rfl⟩

lemma slot_alike (key : String) (read : Tree → Option α) (hr : ∀ {t u}, Alike t u → read t = read u) :
    slot key read none ms = slot key read none ns := by
  have hp := perm_members hd hk h read hr
  have hs := slot_perm hp (by rwa [List.map_map]) key id
  rwa [slot_map, slot_map] at hs

lemma labelled_alike (c : Captures) :
    Captures.labelled Captures.scope? c ms = Captures.labelled Captures.scope? c ns := by
  have hp := perm_members hd hk h Captures.scope? Alike.scope
  have hs := Captures.labelled_perm hp (by rwa [List.map_map]) id c
  rwa [Captures.labelled_map, Captures.labelled_map] at hs

lemma single_alike : Rule.single? (.record (textKeys ms)) = Rule.single? (.record (textKeys ns)) := by
  simp only [Rule.single?, Rule.setAll_textKeys, Rule.SingleFields.after,
    slot_alike hd hk h _ _ Alike.text, slot_alike hd hk h _ _ Alike.captures]

lemma region_alike : Rule.regionMembers {} (textKeys ms) = Rule.regionMembers {} (textKeys ns) := by
  simp only [Rule.regionMembers_textKeys, Rule.RegionFields.after,
    slot_alike hd hk h _ _ Alike.text, slot_alike hd hk h _ _ Alike.captures,
    slot_alike hd hk h _ _ Alike.nested]

lemma Alike.record : Alike (.record (textKeys ms)) (.record (textKeys ns)) where
  text := rfl
  texts := rfl
  scope := by
    simp only [Captures.scope?, Captures.scopeMembers_textKeys, slot_alike hd hk h _ _ Alike.text]
  captures := by
    simp only [Captures.optional?, Captures.ofTree?, Captures.ofMembers_textKeys,
      labelled_alike hd hk h]
  rule := by simp only [Rule.ofTree?, single_alike hd hk h, region_alike hd hk h]
  rules := rfl
  nested := rfl

lemma fields_alike : Grammar.Fields.after {} ms = Grammar.Fields.after {} ns := by
  simp only [Grammar.Fields.after, slot_alike hd hk h _ _ Alike.text, slot_alike hd hk h _ _ Alike.texts,
    slot_alike hd hk h _ _ Alike.rules]

end Record

end Tree

namespace Document

/-- The same tree. Keys of a record differ, and its members may stand in another order. -/
inductive Same : Document → Document → Prop
  | text (s : String) : Same (.text s) (.text s)
  | list {ds es : List Document} : ds.length = es.length →
      (∀ (i : ℕ) (h : i < ds.length) (h' : i < es.length), Same ds[i] es[i]) →
      Same (.list ds) (.list es)
  | record {ms ns : List (String × Document)} : (ms.map (·.1)).Nodup →
      (ms.map (·.1)).Perm (ns.map (·.1)) →
      (∀ k d e, (k, d) ∈ ms → (k, e) ∈ ns → Same d e) → Same (.record ms) (.record ns)

lemma Same.perm {ms ns : List (String × Document)} (h : ms.Perm ns) (hd : (ms.map (·.1)).Nodup)
    (hs : ∀ m ∈ ms, Same m.2 m.2) : Same (.record ms) (.record ns) := by
  refine .record hd (h.map _) fun k d e hm hn => ?_
  have hn : (k, e) ∈ ms := h.mem_iff.mpr hn
  have he : (k, d) = (k, e) := List.inj_on_of_nodup_map hd hm hn rfl
  obtain ⟨-, rfl⟩ := Prod.mk.inj he
  exact hs (k, d) hm

lemma trees_eq_map (ds : List Document) : trees ds = ds.map tree := by
  induction ds with
  | nil => rfl
  | cons d ds ih => rw [trees, ih, List.map_cons]

lemma memberTrees_eq_map (ms : List (String × Document)) :
    memberTrees ms = ms.map fun m => (m.1, m.2.tree) := by
  induction ms with
  | nil => rfl
  | cons m ms ih => rw [memberTrees, ih, List.map_cons]

lemma keys_memberTrees (ms : List (String × Document)) : (memberTrees ms).map (·.1) = ms.map (·.1) := by
  rw [memberTrees_eq_map, List.map_map]
  rfl

lemma alike_memberTrees {ms ns : List (String × Document)}
    (h : ∀ k d e, (k, d) ∈ ms → (k, e) ∈ ns → Tree.Alike d.tree e.tree) :
    ∀ k t u, (k, t) ∈ memberTrees ms → (k, u) ∈ memberTrees ns → Tree.Alike t u := by
  intro k t u ht hu
  rw [memberTrees_eq_map] at ht hu
  obtain ⟨⟨l, d⟩, hd, hdt⟩ := List.mem_map.mp ht
  obtain ⟨⟨m, e⟩, he, heu⟩ := List.mem_map.mp hu
  obtain ⟨rfl, rfl⟩ := Prod.mk.inj hdt
  obtain ⟨rfl, rfl⟩ := Prod.mk.inj heu
  exact h _ d e hd he

theorem Same.alike {d e : Document} (h : Same d e) : Tree.Alike d.tree e.tree := by
  induction h with
  | text s => exact ⟨rfl, rfl, rfl, rfl, rfl, rfl, rfl⟩
  | @list ds es hl _ ih =>
    rw [tree, tree, trees_eq_map, trees_eq_map]
    refine .array (List.forall₂_iff_get.mpr ⟨by simpa using hl, fun i hi hi' => ?_⟩)
    simpa using ih i (by simpa using hi) (by simpa using hi')
  | @record ms ns hd hk _ ih =>
    rw [tree, tree]
    refine .record ?_ ?_ (alike_memberTrees ih)
    · rwa [keys_memberTrees]
    · rwa [keys_memberTrees, keys_memberTrees]

def grammar? : Document → Option Grammar
  | .record ms => (Grammar.Fields.after {} (memberTrees ms)).bind fun f => f.grammar.toOption
  | _ => none

theorem Same.grammar?_eq {d e : Document} (h : Same d e) : d.grammar? = e.grammar? := by
  cases h with
  | text s => rfl
  | list => rfl
  | @record ms ns hd hk h =>
    have halike := alike_memberTrees fun k d e hm hn => (h k d e hm hn).alike
    rw [grammar?, grammar?, Tree.fields_alike ?_ ?_ halike]
    · rwa [keys_memberTrees]
    · rwa [keys_memberTrees, keys_memberTrees]

end Document

end Highlight
