import Highlight.Grammar.Document
import Highlight.Proofs.Grammar.Fields

/-! Rules read back from the documents they are written as. -/

namespace Highlight

namespace Document

mutual

def tree : Document → Tree
  | .text s => .text s
  | .list ds => .array (trees ds)
  | .record ms => .record (textKeys (memberTrees ms))

def trees : List Document → List Tree
  | [] => []
  | d :: ds => tree d :: trees ds

def memberTrees : List (String × Document) → List (String × Tree)
  | [] => []
  | (k, d) :: ms => (k, tree d) :: memberTrees ms

end

end Document

open Document

namespace Captures

lemma insertEntry_of_lt {key scope : String} {l : List (String × String)} (h : ∀ e ∈ l, e.1 < key) :
    insertEntry key scope l = l ++ [(key, scope)] := by
  induction l with
  | nil => rfl
  | cons e l ih =>
    have he : e.1 < key := h e (by simp)
    have hn : ¬ key < e.1 := String.lt_asymm he
    have hne : key ≠ e.1 := fun hk => String.lt_irrefl _ (hk ▸ he)
    rw [insertEntry, if_neg hn, if_neg hne, ih fun d hd => h d (by simp [hd])]
    rfl

lemma entries_foldl_insert {labels : List (String × String)} {c : Captures}
    (h : (c.entries ++ labels).Pairwise (·.1 < ·.1)) :
    (labels.foldl (fun c l => c.insert l.1 l.2) c).entries = c.entries ++ labels := by
  induction labels generalizing c with
  | nil => simp
  | cons l labels ih =>
    have hl : (c.insert l.1 l.2).entries = c.entries ++ [l] :=
      insertEntry_of_lt fun e he => (List.pairwise_append.mp h).2.2 e he l (by simp)
    rw [List.foldl_cons, ih (by simpa [hl] using h), hl]
    simp

lemma ofList_entries (c : Captures) : ofList c.entries = c := by
  have h : (ofList c.entries).entries = c.entries := entries_foldl_insert c.sorted
  cases c
  cases hc : ofList _
  simp_all

lemma scope?_record (scope : String) :
    scope? (Document.tree (.record [("name", .text scope)])) = some scope := by
  simp [Document.tree, Document.memberTrees, scope?, scopeMembers_textKeys, slot, Rule.SingleFields.fill,
    Tree.text?]

lemma ofMembers_entries (labels : List (String × String)) (c : Captures) :
    ofMembers c (textKeys (Document.memberTrees
      (labels.map fun e => (e.1, .record [("name", .text e.2)])))) =
      some (labels.foldl (fun c l => c.insert l.1 l.2) c) := by
  induction labels generalizing c with
  | nil => rfl
  | cons l labels ih =>
    rw [List.map_cons, Document.memberTrees]
    simp only [textKeys, List.map_cons, ofMembers, Tree.text?, scope?_record]
    exact ih _

lemma optional?_toDocument (c : Captures) : optional? c.toDocument.tree = some (some c) := by
  rw [toDocument, Document.tree, optional?]
  · rw [ofTree?, ofMembers_entries]
    exact congrArg (some ∘ some) (ofList_entries c)
  · simp

end Captures

namespace Rule

lemma single?_of_not_mem {ms : List (String × Tree)} (h : "match" ∉ ms.map (·.1)) :
    single? (.record (textKeys ms)) = none := by
  rw [single?, setAll_textKeys, SingleFields.after, slot_of_not_mem h]
  cases slot "name" Tree.text? none ms with
  | none => rfl
  | some name =>
    cases slot "captures" Captures.optional? none ms with
    | none => rfl
    | some captures => cases name <;> rfl

mutual

theorem ofTree?_toDocument (r : Rule) : ofTree? r.toDocument.tree = some r := by
  cases r with
  | single name pattern captures =>
    have h : single? (toDocument (.single name pattern captures)).tree =
        some (.single name pattern captures) := by
      cases captures <;>
        simp [toDocument, Document.tree, Document.memberTrees, single?, setAll_textKeys,
          SingleFields.after, slot, optionalMember, SingleFields.fill, Tree.text?,
          Captures.optional?_toDocument, SingleFields.rule?]
    rw [toDocument, Document.tree] at h ⊢
    rw [ofTree?, h]
    rfl
  | region name opening closing patterns openingCaptures closingCaptures =>
    -- Without a match no single rule is read, whatever else the record holds.
    have hs : single? (toDocument (.region name opening closing patterns openingCaptures
        closingCaptures)).tree = none := by
      apply single?_of_not_mem
      cases patterns <;> cases openingCaptures <;> cases closingCaptures <;>
        simp [nestedMember, optionalMember, Document.memberTrees]
    have hn (rs : List Rule) (h : patterns = some rs) :
        nested? (.array (Document.trees (toDocuments rs))) = some (some rs) := by
      rw [nested?, ofTrees?_toDocuments rs]
      rfl
    rw [toDocument, Document.tree] at hs ⊢
    rw [ofTree?, hs, Option.orElse_eq_orElse, Option.orElse_none, regionMembers_textKeys]
    cases patterns <;> cases openingCaptures <;> cases closingCaptures <;>
      simp [Document.tree, Document.memberTrees, RegionFields.after, slot, nestedMember, optionalMember,
        SingleFields.fill, Tree.text?, Captures.optional?_toDocument, RegionFields.rule?, hn]

theorem ofTrees?_toDocuments (rs : List Rule) : ofTrees? (Document.trees (toDocuments rs)) = some rs := by
  cases rs with
  | nil => rfl
  | cons r rs =>
    rw [toDocuments, Document.trees, ofTrees?, ofTree?_toDocument r, ofTrees?_toDocuments rs]
    rfl

end

end Rule

end Highlight
