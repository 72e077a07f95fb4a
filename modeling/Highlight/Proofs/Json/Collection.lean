import Highlight.Proofs.Json.Literal
import Highlight.Proofs.Json.Number

/-! Arrays and objects, read part by part: what is made of the whole is what is made of its parts, up to
the first that fails. -/

namespace Highlight.Json

open Result

variable {α β : Type}

def StartsValue (b : UInt8) : Prop := isSpace b = false ∧ b ≠ closeBracket

lemma startsValue_digit {b : UInt8} (h : Number.isDigit b = true) : StartsValue b := by
  refine ⟨?_, ?_⟩
  · cases hs : isSpace b with
    | false => rfl
    | true =>
      simp only [isSpace, Bool.or_eq_true, beq_iff_eq] at hs
      rcases hs with ((rfl | rfl) | rfl) | rfl <;> exact absurd h (by decide)
  · rintro rfl
    exact absurd h (by decide)

def Value.Begins : Value → UInt8 → Prop
  | .array _, c => c = openBracket
  | .object _, c => c = openBrace
  | .text _, c => c = quote
  | _, c => StartsValue c ∧ c ≠ openBracket ∧ c ≠ openBrace ∧ c ≠ quote

lemma Value.Begins.startsValue {v : Value} {c : UInt8} (h : v.Begins c) : StartsValue c := by
  cases v with
  | array | object | text =>
    obtain rfl := h
    exact ⟨rfl, by decide⟩
  | null | boolean | number => exact h.1

lemma Spells.begins {v : Value} {b : Bytes} (h : Spells v b) : ∃ c t, b = c :: t ∧ v.Begins c := by
  cases h with
  | @number n x h =>
    have hd := n.first_digit
    cases hn : n.negative with
    | true => exact ⟨minus, _, by rw [Numeral.text, hn]; rfl, ⟨rfl, by decide⟩, by decide⟩
    | false =>
      refine ⟨n.first, _, by rw [Numeral.text, hn]; rfl, startsValue_digit hd, ?_, ?_, ?_⟩
      · exact fun hf => absurd (hf ▸ hd) (by decide)
      · exact fun hf => absurd (hf ▸ hd) (by decide)
      · exact fun hf => absurd (hf ▸ hd) (by decide)
  | text h =>
    obtain ⟨t, _, rfl⟩ := h
    exact ⟨quote, _, rfl, rfl⟩
  | emptyArray | array | emptyObject | object => exact ⟨_, _, rfl, rfl⟩
  | null | yes | no => exact ⟨_, _, rfl, ⟨rfl, by decide⟩, by decide⟩

lemma Spells.head {v : Value} {b : Bytes} (h : Spells v b) : ∃ c t, b = c :: t ∧ StartsValue c := by
  obtain ⟨c, t, hb, hc⟩ := h.begins
  exact ⟨c, t, hb, hc.startsValue⟩

/-! ### Parts -/

section Parts

variable {c : Punctuation} {w w' : Bytes} (hw : Blank w)

lemma start_part {b : UInt8} {s t rest : Bytes} (hp : ∃ ht, c.part b rest = .ok ⟨t, ht⟩)
    (hs : rest.length < s.length) : ∃ h, c.start b rest hs = .ok (.part t h) := by
  obtain ⟨ht, hp⟩ := hp
  exact ⟨Nat.le_trans ht hs, by rw [Punctuation.start, hp]⟩

include hw

lemma next_closed (first : Bool) (rest : Bytes) :
    ∃ h, c.next first (w ++ c.close :: rest) = .ok (.closed rest h) := by
  obtain ⟨h, ha⟩ := ahead?_blank hw c.isSpace_close rest
  exact ⟨h, by simp [Punctuation.next, ha]⟩

variable {b : UInt8} {s t : Bytes}

lemma next_first (hs : isSpace b = false) (hb : b ≠ c.close) (hp : ∃ ht, c.part b s = .ok ⟨t, ht⟩) :
    ∃ h, c.next true (w ++ b :: s) = .ok (.part t h) := by
  obtain ⟨h, ha⟩ := ahead?_blank hw hs s
  obtain ⟨ht, hstart⟩ := start_part hp h
  exact ⟨ht, by simp [Punctuation.next, ha, hb, hstart]⟩

lemma next_next (hw' : Blank w') (hs : isSpace b = false) (hb : b ≠ c.close)
    (hp : ∃ ht, c.part b s = .ok ⟨t, ht⟩) :
    ∃ h, c.next false (w ++ comma :: (w' ++ b :: s)) = .ok (.part t h) := by
  obtain ⟨h, ha⟩ := ahead?_blank hw (show isSpace comma = false by rfl) (w' ++ b :: s)
  obtain ⟨h', ha'⟩ := ahead?_blank hw' hs s
  obtain ⟨ht, hstart⟩ := start_part hp (Nat.lt_trans h' h)
  exact ⟨ht, by simp [Punctuation.next, ha, ha', hb, c.close_ne_comma.symm, hstart]⟩

end Parts

/-! ### Arrays -/

def itemsOf (f : Value → Except (List Step) α) (i : ℕ) : List Value → Except (List Step) (List α)
  | [] => .ok []
  | v :: vs =>
    match f v with
    | .ok a => (itemsOf f (i + 1) vs).map (a :: ·)
    | .error p => .error (.index i :: p)

lemma nextItem_closed {w : Bytes} (hw : Blank w) (i : ℕ) (rest : Bytes) :
    ∃ h, nextItem i (w ++ closeBracket :: rest) = .ok (.closed rest h) :=
  next_closed (c := inArray) hw (i = 0) rest

lemma nextItem_first {w : Bytes} (hw : Blank w) {b : UInt8} (hs : isSpace b = false)
    (hb : b ≠ closeBracket) (s : Bytes) :
    ∃ h, nextItem 0 (w ++ b :: s) = .ok (.part (b :: s) h) :=
  next_first (c := inArray) hw hs hb ⟨Nat.le_refl _, rfl⟩

lemma nextItem_next {w w' : Bytes} (hw : Blank w) (hw' : Blank w') {b : UInt8}
    (hs : isSpace b = false) (hb : b ≠ closeBracket) (i : ℕ) (s : Bytes) :
    ∃ h, nextItem (i + 1) (w ++ comma :: (w' ++ b :: s)) = .ok (.part (b :: s) h) :=
  next_next (c := inArray) hw hw' hs hb ⟨Nat.le_refl _, rfl⟩

lemma items_closed {w : Bytes} (hw : Blank w) (item : Reader α) (i : ℕ) (rest : Bytes) :
    (items item i (w ++ closeBracket :: rest)).outcome = .ok ([], rest) := by
  obtain ⟨h, hn⟩ := nextItem_closed hw i rest
  rw [items, hn]
  rfl

lemma items_part {item : Reader α} {i : ℕ} {s t : Bytes}
    (h : ∃ ht, nextItem i s = .ok (.part t ht)) :
    (items item i s).outcome =
      match (item t).outcome with
      | .ok (a, u) => (items item (i + 1) u).outcome.map fun p => (a :: p.1, p.2)
      | .error p => .error (.index i :: p) := by
  obtain ⟨ht, hn⟩ := h
  rw [items, hn]
  simp only [outcome_widen]
  cases hi : (item t).outcome with
  | error p => exact outcome_andThen_error (by rw [outcome_within, hi]; rfl)
  | ok q =>
    obtain ⟨a, u⟩ := q
    have hw : ((item t).within (.index i)).outcome = .ok (a, u) := by
      rw [outcome_within, hi]
      rfl
    obtain ⟨_, hs⟩ := outcome_andThen (f := fun a u _ => (items item (i + 1) u).map (a :: ·)) hw
    rw [hs, outcome_map]

lemma ends_closeBracket {w : Bytes} (hw : Blank w) (rest : Bytes) :
    Ends (w ++ closeBracket :: rest) :=
  .blank_append hw (.cons (.inr (.inr (.inl rfl))) _)

lemma ends_items {w c : Bytes} (hw : Blank w) {vs : List Value} (hc : SpellsItems vs c)
    (rest : Bytes) : Ends (w ++ (c ++ closeBracket :: rest)) := by
  cases hc with
  | nil => exact ends_closeBracket hw rest
  | cons => exact .blank_append hw (.cons (.inr (.inl rfl)) _)

section Items

variable {item : Reader α} {f : Value → Except (List Step) α} (hf : item.Decodes f)

include hf

lemma itemsOf_cons {v : Value} {vs : List Value} {b s u : Bytes} {i : ℕ} (hb : Spells v b)
    (hu : Ends u) (h : ∃ ht, nextItem i s = .ok (.part (b ++ u) ht))
    (hr : ∀ j, i + 1 = j → (items item j u).outcome = (itemsOf f j vs).map (·, rest)) :
    (items item i s).outcome = (itemsOf f i (v :: vs)).map (·, rest) := by
  have hi := hf (w := []) .nil hb hu
  rw [List.nil_append] at hi
  rw [items_part h, hi, itemsOf]
  cases f v with
  | error p => rfl
  | ok a =>
    simp only [Except.map, hr _ rfl]
    cases itemsOf f (i + 1) vs <;> rfl

lemma items_rest {vs : List Value} {c : Bytes} (hc : SpellsItems vs c) {w : Bytes} (hw : Blank w)
    (i : ℕ) (rest : Bytes) :
    (items item (i + 1) (w ++ (c ++ closeBracket :: rest))).outcome =
      (itemsOf f (i + 1) vs).map (·, rest) := by
  induction vs generalizing c w i with
  | nil =>
    cases hc
    exact items_closed hw item (i + 1) rest
  | cons v vs ih =>
    cases hc with
    | @cons _ _ w₁ b w₂ c hw₁ hb hw₂ hc =>
      obtain ⟨d, t, rfl, hd⟩ := hb.head
      have ht : comma :: (w₁ ++ (d :: t ++ (w₂ ++ c))) ++ closeBracket :: rest =
          comma :: (w₁ ++ d :: (t ++ (w₂ ++ (c ++ closeBracket :: rest)))) := by simp
      rw [ht]
      refine itemsOf_cons hf hb (ends_items hw₂ hc rest) ?_ ?_
      · exact nextItem_next hw hw₁ hd.1 hd.2 i _
      · rintro _ rfl
        exact ih hc hw₂ (i + 1)

lemma items_first {v : Value} {vs : List Value} {w b w' c : Bytes} (hw : Blank w) (hb : Spells v b)
    (hw' : Blank w') (hc : SpellsItems vs c) (rest : Bytes) :
    (items item 0 (w ++ (b ++ (w' ++ (c ++ closeBracket :: rest))))).outcome =
      (itemsOf f 0 (v :: vs)).map (·, rest) := by
  obtain ⟨d, t, rfl, hd⟩ := hb.head
  refine itemsOf_cons hf hb (ends_items hw' hc rest) (nextItem_first hw hd.1 hd.2 _) ?_
  rintro _ rfl
  exact items_rest hf hc hw' 0 rest

lemma items_array {vs : List Value} {b : Bytes} (h : Spells (.array vs) b) (rest : Bytes) :
    ∃ t, b ++ rest = openBracket :: t ∧
      (items item 0 t).outcome = (itemsOf f 0 vs).map (·, rest) := by
  cases h with
  | emptyArray hw => exact ⟨_, by simp, items_closed hw item 0 rest⟩
  | array hw hb hw' hc => exact ⟨_, by simp, items_first hf hw hb hw' hc rest⟩

end Items

/-! ### Objects -/

def membersOf (step : β → String → Value → Except (List Step) β) (state : β) :
    List (String × Value) → Except (List Step) β
  | [] => .ok state
  | (k, v) :: ms => (step state k v).bind fun state => membersOf step state ms

lemma nextKey_closed {w : Bytes} (hw : Blank w) (first : Bool) (rest : Bytes) :
    ∃ h, nextKey first (w ++ closeBrace :: rest) = .ok (.closed rest h) :=
  next_closed (c := inObject) hw first rest

lemma nextKey_first {w : Bytes} (hw : Blank w) (s : Bytes) :
    ∃ h, nextKey true (w ++ quote :: s) = .ok (.part s h) :=
  next_first (c := inObject) hw rfl (by decide) ⟨Nat.le_succ _, rfl⟩

lemma nextKey_next {w w' : Bytes} (hw : Blank w) (hw' : Blank w') (s : Bytes) :
    ∃ h, nextKey false (w ++ comma :: (w' ++ quote :: s)) = .ok (.part s h) :=
  next_next (c := inObject) hw hw' rfl (by decide) ⟨Nat.le_succ _, rfl⟩

lemma members_closed {w : Bytes} (hw : Blank w) (member : β → String → Reader β) (state : β)
    (first : Bool) (rest : Bytes) :
    (members member state first (w ++ closeBrace :: rest)).outcome = .ok (state, rest) := by
  obtain ⟨h, hn⟩ := nextKey_closed hw first rest
  rw [members, hn]
  rfl

lemma members_part {member : β → String → Reader β} {state : β} {first : Bool} {s t u : Bytes}
    {k : String} (h : ∃ ht, nextKey first s = .ok (.part t ht))
    (hk : (literal t).outcome = .ok (k, u)) :
    (members member state first s).outcome =
      match (member state k u).outcome with
      | .ok (state, v) => (members member state false v).outcome
      | .error p => .error p := by
  obtain ⟨ht, hn⟩ := h
  have hl : ((literal t).within .unknown).outcome = .ok (k, u) := by
    rw [outcome_within, hk]
    rfl
  obtain ⟨hu, hs⟩ := outcome_andThen (f := fun key u _ =>
    (member state key u).andThen fun state v _ => members member state false v) hl
  rw [members, hn]
  simp only [outcome_widen]
  rw [hs]
  cases hm : (member state k u).outcome with
  | error p => exact outcome_andThen_error hm
  | ok q =>
    obtain ⟨_, hs⟩ := outcome_andThen (f := fun state v _ => members member state false v) hm
    exact hs

lemma ends_closeBrace {w : Bytes} (hw : Blank w) (rest : Bytes) : Ends (w ++ closeBrace :: rest) :=
  .blank_append hw (.cons (.inr (.inr (.inr rfl))) _)

lemma ends_members {w c : Bytes} (hw : Blank w) {ms : List (String × Value)}
    (hc : SpellsMembers ms c) (rest : Bytes) : Ends (w ++ (c ++ closeBrace :: rest)) := by
  cases hc with
  | nil => exact ends_closeBrace hw rest
  | cons => exact .blank_append hw (.cons (.inr (.inl rfl)) _)

/-- A reader of members makes of the text of every member, after its key, what `step` makes of it. -/
def DecodesMembers (member : β → String → Reader β)
    (step : β → String → Value → Except (List Step) β) : Prop :=
  ∀ (state : β) (k : String) {v : Value} {w w' b rest : Bytes}, Blank w → Blank w' → Spells v b →
    Ends rest → (member state k (w ++ colon :: (w' ++ (b ++ rest)))).outcome =
      (step state k v).map (·, rest)

lemma afterColon_blank {w : Bytes} (hw : Blank w) (s : Bytes) :
    (afterColon (w ++ colon :: s)).outcome = .ok ((), s) := by
  obtain ⟨h, ha⟩ := ahead?_blank hw (show isSpace colon = false by rfl) s
  simp [afterColon, ha]

lemma memberValue_outcome {value : Reader α} {f : Value → Except (List Step) α}
    (hf : value.Decodes f) (k : String) {v : Value} {w w' b rest : Bytes} (hw : Blank w)
    (hw' : Blank w') (hb : Spells v b) (hr : Ends rest) :
    (memberValue k value (w ++ colon :: (w' ++ (b ++ rest)))).outcome =
      ((f v).mapError (.key k :: ·)).map (·, rest) := by
  obtain ⟨_, hs⟩ := outcome_andThen (f := fun _ t _ => (value t).within (.key k))
    (afterColon_blank hw (w' ++ (b ++ rest)))
  rw [memberValue, hs, outcome_within, hf hw' hb hr]
  cases f v <;> rfl

lemma SpellsMember.parts {k : String} {v : Value} {b : Bytes} (h : SpellsMember (k, v) b) :
    ∃ t w w' d, b = quote :: (t ++ quote :: (w ++ colon :: (w' ++ d))) ∧
      SpellsChars k.toList t ∧ Blank w ∧ Blank w' ∧ Spells v d := by
  cases h with
  | @intro _ _ kb w w' d hk hw hw' hd =>
    obtain ⟨t, ht, rfl⟩ := hk
    exact ⟨t, w, w', d, by simp, ht, hw, hw', hd⟩

section Members

variable {member : β → String → Reader β} {step : β → String → Value → Except (List Step) β}
variable (hm : DecodesMembers member step)

include hm

lemma membersOf_cons {k : String} {v : Value} {ms : List (String × Value)} {b s u rest : Bytes}
    {state : β} {first : Bool} (hb : SpellsMember (k, v) b) (hu : Ends u)
    (h : ∀ t, b ++ u = quote :: t → ∃ ht, nextKey first s = .ok (.part t ht))
    (hr : ∀ state, (members member state false u).outcome = (membersOf step state ms).map (·, rest)) :
    (members member state first s).outcome = (membersOf step state ((k, v) :: ms)).map (·, rest) := by
  obtain ⟨t, w, w', d, rfl, ht, hw, hw', hd⟩ := hb.parts
  have hl := literal_chars ht (w ++ colon :: (w' ++ (d ++ u)))
  rw [String.ofList_toList] at hl
  rw [members_part (h _ (by simp)) hl, hm state k hw hw' hd hu, membersOf]
  cases step state k v with
  | error p => rfl
  | ok state => exact hr state

lemma members_rest {ms : List (String × Value)} {c : Bytes} (hc : SpellsMembers ms c) {w : Bytes}
    (hw : Blank w) (state : β) (rest : Bytes) :
    (members member state false (w ++ (c ++ closeBrace :: rest))).outcome =
      (membersOf step state ms).map (·, rest) := by
  induction ms generalizing c w state with
  | nil =>
    cases hc
    exact members_closed hw member state false rest
  | cons m ms ih =>
    cases hc with
    | @cons k v _ w₁ b w₂ c hw₁ hb hw₂ hc =>
      refine membersOf_cons hm hb (ends_members hw₂ hc rest) ?_ (ih hc hw₂)
      intro t ht
      have hs : comma :: (w₁ ++ (b ++ (w₂ ++ c))) ++ closeBrace :: rest =
          comma :: (w₁ ++ quote :: t) := by simp [← ht]
      rw [hs]
      exact nextKey_next hw hw₁ t

lemma members_object {ms : List (String × Value)} {b : Bytes} (h : Spells (.object ms) b)
    (state : β) (rest : Bytes) :
    ∃ t, b ++ rest = openBrace :: t ∧
      (members member state true t).outcome = (membersOf step state ms).map (·, rest) := by
  cases h with
  | emptyObject hw => exact ⟨_, by simp, members_closed hw member state true rest⟩
  | @object k v ms w b w' c hw hb hw' hc =>
    refine ⟨w ++ (b ++ (w' ++ (c ++ closeBrace :: rest))), by simp, ?_⟩
    refine membersOf_cons hm hb (ends_members hw' hc rest) ?_ (members_rest hm hc hw' · rest)
    intro t ht
    rw [ht]
    exact nextKey_first hw t

end Members

end Highlight.Json
