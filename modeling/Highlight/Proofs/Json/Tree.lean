import Highlight.Json.Grammar
import Highlight.Proofs.Json.Collection

/-! Reading a value of any kind: it is read whole if its brackets do not nest too deeply, and passed over
however deeply they nest. -/

namespace Highlight.Json

open Result

variable {α β : Type}

namespace Value

mutual

def depth : Value → ℕ
  | .array vs => itemsDepth vs + 1
  | .object ms => membersDepth ms + 1
  | _ => 0

def itemsDepth : List Value → ℕ
  | [] => 0
  | v :: vs => max (depth v) (itemsDepth vs)

def membersDepth : List (String × Value) → ℕ
  | [] => 0
  | (_, v) :: ms => max (depth v) (membersDepth ms)

end

mutual

def tree : Value → Tree
  | .null => .null
  | .boolean b => .boolean b
  | .number x => (Scalar.number x).tree
  | .text s => .text s
  | .array vs => .array (trees vs)
  | .object ms => .record (memberTrees ms)

def trees : List Value → List Tree
  | [] => []
  | v :: vs => tree v :: trees vs

def memberTrees : List (String × Value) → List (Tree × Tree)
  | [] => []
  | (k, v) :: ms => (.text k, tree v) :: memberTrees ms

end

end Value

def memberTree (f : Value → Except (List Step) Tree) (done : List (Tree × Tree)) (k : String)
    (v : Value) : Except (List Step) (List (Tree × Tree)) :=
  ((f v).mapError (.key k :: ·)).map fun t => (.text k, t) :: done

def treeOf : ℕ → Value → Except (List Step) Tree
  | 0, .array _ | 0, .object _ => .error []
  | n + 1, .array vs => (itemsOf (treeOf n) 0 vs).map .array
  | n + 1, .object ms =>
    (membersOf (memberTree (treeOf n)) [] ms).map fun done => .record done.reverse
  | _, v => .ok v.tree

/-! ### Depth -/

lemma itemsOf_eq_ok {f : Value → Except (List Step) Tree} {vs : List Value} (i : ℕ)
    (h : ∀ v ∈ vs, f v = .ok v.tree) : itemsOf f i vs = .ok (Value.trees vs) := by
  induction vs generalizing i with
  | nil => rfl
  | cons v vs ih =>
    rw [itemsOf, h v (by simp), ih (i + 1) fun u hu => h u (by simp [hu])]
    rfl

lemma membersOf_eq_ok {f : Value → Except (List Step) Tree} {ms : List (String × Value)}
    (done : List (Tree × Tree)) (h : ∀ m ∈ ms, f m.2 = .ok m.2.tree) :
    membersOf (memberTree f) done ms = .ok ((Value.memberTrees ms).reverse ++ done) := by
  induction ms generalizing done with
  | nil => rfl
  | cons m ms ih =>
    have hm : memberTree f done m.1 m.2 = .ok ((.text m.1, m.2.tree) :: done) := by
      rw [memberTree, h m (by simp)]
      rfl
    rw [membersOf, hm, Except.bind, ih _ fun u hu => h u (by simp [hu]), Value.memberTrees]
    simp

lemma depth_le_of_mem_items {v : Value} {vs : List Value} (h : v ∈ vs) :
    v.depth ≤ Value.itemsDepth vs := by
  induction vs with
  | nil => simp at h
  | cons u us ih =>
    rw [Value.itemsDepth]
    rcases List.mem_cons.mp h with rfl | h
    · exact Nat.le_max_left _ _
    · exact Nat.le_trans (ih h) (Nat.le_max_right _ _)

lemma depth_le_of_mem_members {m : String × Value} {ms : List (String × Value)} (h : m ∈ ms) :
    m.2.depth ≤ Value.membersDepth ms := by
  have hd (ms : List (String × Value)) : Value.membersDepth ms = Value.itemsDepth (ms.map (·.2)) := by
    induction ms with
    | nil => rfl
    | cons m ms ih => exact congrArg (max m.2.depth) ih
  rw [hd]
  exact depth_le_of_mem_items (List.mem_map_of_mem h)

lemma treeOf_of_depth_le {n : ℕ} {v : Value} (h : v.depth ≤ n) : treeOf n v = .ok v.tree := by
  induction n generalizing v with
  | zero => cases v <;> first | rfl | simp [Value.depth] at h
  | succ n ih =>
    cases v with
    | array vs =>
      have hv : ∀ v ∈ vs, treeOf n v = .ok v.tree := fun v hv =>
        ih (Nat.le_trans (depth_le_of_mem_items hv) (Nat.le_of_succ_le_succ h))
      rw [treeOf, itemsOf_eq_ok 0 hv]
      rfl
    | object ms =>
      have hm : ∀ m ∈ ms, treeOf n m.2 = .ok m.2.tree := fun m hm =>
        ih (Nat.le_trans (depth_le_of_mem_members hm) (Nat.le_of_succ_le_succ h))
      rw [treeOf, membersOf_eq_ok [] hm]
      simp [Except.map, Value.tree]
    | null | boolean | number | text => rfl

lemma itemsOf_error {f : Value → Except (List Step) α} {v : Value} {vs : List Value} (hv : v ∈ vs)
    (h : ∃ p, f v = .error p) (i : ℕ) : ∃ p, itemsOf f i vs = .error p := by
  induction vs generalizing i with
  | nil => simp at hv
  | cons u us ih =>
    rw [itemsOf]
    cases hu : f u with
    | error p => exact ⟨_, rfl⟩
    | ok a =>
      rcases List.mem_cons.mp hv with rfl | hv
      · obtain ⟨p, hp⟩ := h
        simp [hp] at hu
      · obtain ⟨p, hp⟩ := ih hv (i + 1)
        exact ⟨p, by rw [hp]; rfl⟩

lemma membersOf_error {step : β → String → Value → Except (List Step) β} {m : String × Value}
    {ms : List (String × Value)} (hm : m ∈ ms) (h : ∀ state, ∃ p, step state m.1 m.2 = .error p)
    (state : β) : ∃ p, membersOf step state ms = .error p := by
  induction ms generalizing state with
  | nil => simp at hm
  | cons u us ih =>
    rw [membersOf]
    cases hu : step state u.1 u.2 with
    | error p => exact ⟨p, rfl⟩
    | ok state' =>
      rcases List.mem_cons.mp hm with rfl | hm
      · obtain ⟨p, hp⟩ := h state
        simp [hp] at hu
      · exact ih hm state'

lemma exists_depth_items {n : ℕ} {vs : List Value} (h : n < Value.itemsDepth vs) :
    ∃ v ∈ vs, n < v.depth := by
  induction vs with
  | nil => simp [Value.itemsDepth] at h
  | cons u us ih =>
    rw [Value.itemsDepth] at h
    rcases (by omega : n < u.depth ∨ n < Value.itemsDepth us) with h | h
    · exact ⟨u, by simp, h⟩
    · obtain ⟨v, hv, hd⟩ := ih h
      exact ⟨v, by simp [hv], hd⟩

lemma exists_depth_members {n : ℕ} {ms : List (String × Value)} (h : n < Value.membersDepth ms) :
    ∃ m ∈ ms, n < m.2.depth := by
  induction ms with
  | nil => simp [Value.membersDepth] at h
  | cons u us ih =>
    obtain ⟨k, v⟩ := u
    rw [Value.membersDepth] at h
    rcases (by omega : n < v.depth ∨ n < Value.membersDepth us) with h | h
    · exact ⟨(k, v), by simp, h⟩
    · obtain ⟨m, hm, hd⟩ := ih h
      exact ⟨m, by simp [hm], hd⟩

lemma treeOf_of_lt_depth {n : ℕ} {v : Value} (h : n < v.depth) : ∃ p, treeOf n v = .error p := by
  induction n generalizing v with
  | zero =>
    cases v with
    | array | object => exact ⟨[], rfl⟩
    | null | boolean | number | text => simp [Value.depth] at h
  | succ n ih =>
    cases v with
    | array vs =>
      obtain ⟨v, hv, hd⟩ := exists_depth_items (Nat.lt_of_succ_lt_succ h)
      obtain ⟨p, hp⟩ := itemsOf_error hv (ih hd) 0
      exact ⟨p, by rw [treeOf, hp]; rfl⟩
    | object ms =>
      obtain ⟨m, hm, hd⟩ := exists_depth_members (Nat.lt_of_succ_lt_succ h)
      obtain ⟨q, hq⟩ := ih hd
      have hs (done) : ∃ p, memberTree (treeOf n) done m.1 m.2 = .error p :=
        ⟨_, by rw [memberTree, hq]; rfl⟩
      obtain ⟨p, hp⟩ := membersOf_error hm hs []
      exact ⟨p, by rw [treeOf, hp]; rfl⟩
    | null | boolean | number | text => simp [Value.depth] at h

/-! ### Reading a value -/

lemma word_append (letters rest : Bytes) :
    ∃ h, word letters (letters ++ rest) = .ok ⟨rest, h⟩ := by
  induction letters with
  | nil => exact ⟨Nat.le_refl _, rfl⟩
  | cons l ls ih =>
    obtain ⟨h, hw⟩ := ih
    exact ⟨Nat.le_succ_of_le h, by simp [word, hw, Except.map]⟩

lemma scalar_word {b : UInt8} {letters : Bytes} {x : Scalar} (h : wordOf? b = some (letters, x))
    (rest : Bytes) : (scalar (b :: (letters ++ rest))).outcome = .ok (x, rest) := by
  obtain ⟨_, hw⟩ := word_append letters rest
  simp [scalar, h, hw, Except.map]

lemma scalar_text {s : String} {b : Bytes} (h : SpellsText s b) (rest : Bytes) :
    (scalar (b ++ rest)).outcome = .ok (.text s, rest) := by
  obtain ⟨t, ht, rfl⟩ := h
  have hl := literal_chars ht rest
  rw [String.ofList_toList] at hl
  have hs : quote :: (t ++ [quote]) ++ rest = quote :: (t ++ quote :: rest) := by simp
  rw [hs, scalar]
  simp only [show wordOf? quote = none by decide, show quote ≠ minus by decide,
    show Number.isDigit quote = false by decide, Bool.false_eq_true, if_false, if_true,
    outcome_widen, outcome_map, hl]
  rfl

def Value.scalar? : Value → Option Scalar
  | .null => some .null
  | .boolean b => some (.boolean b)
  | .number x => some (.number x)
  | .text s => some (.text s)
  | _ => none

lemma scalar_outcome {v : Value} {x : Scalar} (hx : v.scalar? = some x) {b : Bytes}
    (hb : Spells v b) {rest : Bytes} (hr : Ends rest) :
    (scalar (b ++ rest)).outcome = .ok (x, rest) := by
  cases hb with
  | null | yes | no => exact scalar_word (by rw [← Option.some.inj hx]; rfl) rest
  | number h => rw [scalar_numeral h hr, ← Option.some.inj hx]
  | text h => rw [scalar_text h, ← Option.some.inj hx]
  | emptyArray | array | emptyObject | object => cases hx

lemma Spells.head_scalar {v : Value} {x : Scalar} (hx : v.scalar? = some x) {b : Bytes}
    (hb : Spells v b) :
    ∃ c t, b = c :: t ∧ StartsValue c ∧ c ≠ openBracket ∧ c ≠ openBrace := by
  obtain ⟨c, t, rfl, hc⟩ := hb.begins
  refine ⟨c, t, rfl, hc.startsValue, ?_⟩
  cases v with
  | array | object => cases hx
  | text =>
    obtain rfl := hc
    exact ⟨by decide, by decide⟩
  | null | boolean | number => exact ⟨hc.2.1, hc.2.2.1⟩

lemma treeWith_scalar (inner : Option (Reader Tree)) {v : Value} {x : Scalar}
    (hx : v.scalar? = some x) {w b rest : Bytes} (hw : Blank w) (hb : Spells v b) (hr : Ends rest) :
    (treeWith inner (w ++ (b ++ rest))).outcome = .ok (x.tree, rest) := by
  have hs := scalar_outcome hx hb hr
  obtain ⟨c, t, rfl, hc, ha, ho⟩ := hb.head_scalar hx
  rw [List.cons_append] at hs ⊢
  rw [treeWith, outcome_afterSpace _ hw hc.1]
  simp only [ha, ho, if_false, outcome_map, hs]
  rfl

lemma treeOf_scalar {v : Value} {x : Scalar} (hx : v.scalar? = some x) (n : ℕ) :
    treeOf n v = .ok x.tree := by
  cases v with
  | array | object => cases hx
  | null | boolean | number | text => cases hx; cases n <;> rfl

lemma decodesMembers_memberTree {value : Reader Tree} {f : Value → Except (List Step) Tree}
    (hf : value.Decodes f) :
    DecodesMembers (fun ms key s => Result.map (fun v => (.text key, v) :: ms) (memberValue key value s))
      (memberTree f) := by
  intro done k v w w' b rest hw hw' hb hr
  rw [outcome_map, memberValue_outcome hf k hw hw' hb hr, memberTree]
  cases f v <;> rfl

lemma treeWith_array {value : Reader Tree} {f : Value → Except (List Step) Tree}
    (hf : value.Decodes f) {vs : List Value} {w b : Bytes} (hw : Blank w) (hb : Spells (.array vs) b)
    (rest : Bytes) :
    (treeWith (some value) (w ++ (b ++ rest))).outcome =
      ((itemsOf f 0 vs).map .array).map (·, rest) := by
  obtain ⟨t, ht, hi⟩ := items_array hf hb rest
  rw [ht, treeWith, outcome_afterSpace _ hw (show isSpace openBracket = false by rfl)]
  simp only [if_true, outcome_widen, outcome_map, hi]
  cases itemsOf f 0 vs <;> rfl

lemma treeWith_object {value : Reader Tree} {f : Value → Except (List Step) Tree}
    (hf : value.Decodes f) {ms : List (String × Value)} {w b : Bytes} (hw : Blank w)
    (hb : Spells (.object ms) b) (rest : Bytes) :
    (treeWith (some value) (w ++ (b ++ rest))).outcome =
      ((membersOf (memberTree f) [] ms).map fun done => .record done.reverse).map (·, rest) := by
  obtain ⟨t, ht, hi⟩ := members_object (decodesMembers_memberTree hf) hb [] rest
  rw [ht, treeWith, outcome_afterSpace _ hw (show isSpace openBrace = false by rfl)]
  simp only [show openBrace ≠ openBracket by decide, if_false, if_true, outcome_widen, outcome_map, hi]
  cases membersOf (memberTree f) [] ms <;> rfl

lemma tree_decodes (n : ℕ) : (tree n).Decodes (treeOf n) := by
  induction n with
  | zero =>
    intro v w b rest hw hb hr
    rw [tree]
    -- A bracket or a brace is refused before anything inside it is read.
    cases v with
    | array vs =>
      obtain ⟨_, t, rfl, rfl⟩ := hb.begins
      rw [List.cons_append, treeWith, outcome_afterSpace _ hw (show isSpace openBracket = false by rfl)]
      rfl
    | object ms =>
      obtain ⟨_, t, rfl, rfl⟩ := hb.begins
      rw [List.cons_append, treeWith, outcome_afterSpace _ hw (show isSpace openBrace = false by rfl)]
      rfl
    | null | boolean | number | text =>
      rw [treeWith_scalar none rfl hw hb hr, treeOf_scalar rfl]
      rfl
  | succ n ih =>
    intro v w b rest hw hb hr
    rw [tree]
    cases v with
    | array vs => rw [treeWith_array ih hw hb, treeOf]
    | object ms => rw [treeWith_object ih hw hb, treeOf]
    | null | boolean | number | text =>
      rw [treeWith_scalar _ rfl hw hb hr, treeOf_scalar rfl]
      rfl

end Highlight.Json
