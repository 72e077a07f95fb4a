import Highlight.Proofs.Json.Tree

/-! Passing over a value: the text of a value closes every bracket that it opens, so the stack of open
brackets is after it what it was before. -/

namespace Highlight.Json

open Result

namespace Skip

def resume (opened : Bytes) (s : Bytes) : Except (List Json.Step) (Unit × Bytes) :=
  if opened = [] then .ok ((), s) else (run ⟨.nextPart, opened⟩ s).outcome

lemma run_of_value {e : Step} {s t : Bytes} {opened : Bytes}
    (h : (step e s).outcome = .ok (⟨.nextPart, opened⟩, t)) :
    (run e s).outcome = resume opened t := by
  rw [run, resume]
  split
  · next f hs => simp [hs] at h
  · next r hr hs =>
    obtain ⟨rfl, rfl⟩ : [] = opened ∧ r = t := by simpa [hs] using h
    rfl
  · next e' r hr hn hs =>
    obtain ⟨rfl, rfl⟩ : e' = ⟨.nextPart, opened⟩ ∧ r = t := by simpa [hs] using h
    split
    · next ho =>
      subst ho
      exact (hn rfl).elim
    · rw [outcome_widen]

lemma run_of_inside {e e' : Step} {s t : Bytes} (h : (step e s).outcome = .ok (e', t))
    (he : e'.expecting ≠ .nextPart) : (run e s).outcome = (run e' t).outcome := by
  rw [run]
  split
  · next f hs => simp [hs] at h
  · next r hr hs =>
    obtain ⟨rfl, rfl⟩ : ⟨.nextPart, []⟩ = e' ∧ r = t := by simpa [hs] using h
    exact (he rfl).elim
  · next e₁ r hr hn hs =>
    obtain ⟨rfl, rfl⟩ : e₁ = e' ∧ r = t := by simpa [hs] using h
    rw [outcome_widen]

lemma run_of_error {e : Step} {s : Bytes} {p : List Json.Step} (h : (step e s).outcome = .error p) :
    (run e s).outcome = .error p := by
  rw [run]
  split
  · next f hs => simpa [hs] using h
  · next r hr hs => simp [hs] at h
  · next e' r hr hn hs => simp [hs] at h

lemma run_congr {e e' : Step} {s t : Bytes} (h : (step e s).outcome = (step e' t).outcome) :
    (run e s).outcome = (run e' t).outcome := by
  cases hs : (step e' t).outcome with
  | error p => rw [run_of_error (h.trans hs), run_of_error hs]
  | ok q =>
    obtain ⟨⟨expecting, opened⟩, u⟩ := q
    cases expecting with
    | nextPart => rw [run_of_value (h.trans hs), run_of_value hs]
    | value | firstPart =>
      rw [run_of_inside (h.trans hs) (by simp), run_of_inside hs (by simp)]

lemma step_value (opened s : Bytes) : step ⟨.value, opened⟩ s = value opened s := by
  cases opened <;> rfl

lemma value_word {w : Bytes} (hw : Blank w) {b : UInt8} {letters : Bytes} {x : Scalar}
    (hb : isSpace b = false) (h : wordOf? b = some (letters, x)) (opened rest : Bytes) :
    (value opened (w ++ b :: (letters ++ rest))).outcome = .ok (⟨.nextPart, opened⟩, rest) := by
  obtain ⟨_, hl⟩ := word_append letters rest
  rw [value, outcome_afterSpace _ hw hb]
  simp [h, hl, Except.map]

lemma value_quote {w s t : Bytes} (hw : Blank w) (h : (literal s).outcome = .ok ((), t)) (opened : Bytes) :
    (value opened (w ++ quote :: s)).outcome = .ok (⟨.nextPart, opened⟩, t) := by
  rw [value, outcome_afterSpace _ hw rfl]
  simp only [show wordOf? quote = none by decide, show quote ≠ minus by decide,
    show Number.isDigit quote = false by decide, Bool.false_eq_true, if_false, if_true,
    outcome_widen, outcome_map, h]
  rfl

lemma value_scalar {v : Value} {x : Scalar} (hx : v.scalar? = some x) {w b rest : Bytes}
    (hw : Blank w) (hb : Spells v b) (hr : Ends rest) (opened : Bytes) :
    (value opened (w ++ (b ++ rest))).outcome = .ok (⟨.nextPart, opened⟩, rest) := by
  cases hb with
  | null | yes | no => exact value_word hw rfl rfl opened rest
  | @number n x h =>
    have hn := number_text n hr
    rw [numeral_append]
    cases hs : n.negative with
    | true =>
      rw [if_pos rfl, value, outcome_afterSpace _ hw rfl]
      simp only [show wordOf? minus = none by decide, if_true, outcome_widen, outcome_map, hn]
      rfl
    | false =>
      have hm : n.first ≠ minus := fun hf => absurd (hf ▸ n.first_digit) (by decide)
      rw [if_neg (by simp), value, outcome_afterSpace _ hw (startsValue_digit n.first_digit).1]
      simp only [wordOf?_digit n.first_digit, hm, n.first_digit, if_false, if_true, outcome_map, hn]
      rfl
  | text h =>
    obtain ⟨t, ht, rfl⟩ := h
    have hs : quote :: (t ++ [quote]) ++ rest = quote :: (t ++ quote :: rest) := by simp
    rw [hs]
    exact value_quote hw (literal_chars ht rest) opened
  | emptyArray | array | emptyObject | object => cases hx

lemma value_bracket {w : Bytes} (hw : Blank w) {b : UInt8} (hb : b = openBracket ∨ b = openBrace)
    (opened s : Bytes) :
    (value opened (w ++ b :: s)).outcome = .ok (⟨.firstPart, b :: opened⟩, s) := by
  rcases hb with rfl | rfl
  · rw [value, outcome_afterSpace _ hw rfl]
    rfl
  · rw [value, outcome_afterSpace _ hw rfl]
    rfl

/-! ### Inside brackets -/

lemma inside_closing {w : Bytes} (hw : Blank w) {bracket : UInt8}
    (hb : isSpace (closing bracket) = false) (first : Bool) (opened s : Bytes) :
    (inside first bracket opened (w ++ closing bracket :: s)).outcome =
      .ok (⟨.nextPart, opened⟩, s) := by
  obtain ⟨h, ha⟩ := ahead?_blank hw hb s
  simp [inside, ha]

lemma inside_first {w : Bytes} (hw : Blank w) {b bracket : UInt8} (hs : isSpace b = false)
    (hb : b ≠ closing bracket) (opened s : Bytes) :
    (inside true bracket opened (w ++ b :: s)).outcome = (part bracket opened (b :: s)).outcome := by
  obtain ⟨h, ha⟩ := ahead?_blank hw hs s
  simp [inside, ha, hb]

lemma inside_comma {w : Bytes} (hw : Blank w) {bracket : UInt8} (hb : comma ≠ closing bracket)
    (opened s : Bytes) :
    (inside false bracket opened (w ++ comma :: s)).outcome = (part bracket opened s).outcome := by
  obtain ⟨h, ha⟩ := ahead?_blank hw (show isSpace comma = false by rfl) s
  simp [inside, ha, hb]

lemma part_array (opened s : Bytes) :
    part openBracket opened s = value (openBracket :: opened) s := by
  rw [part, if_pos rfl]

lemma part_object {w t : Bytes} {cs : List Char} (hw : Blank w) (ht : SpellsChars cs t) {u : Bytes}
    (hu : Blank u) (opened s : Bytes) :
    (part openBrace opened (w ++ quote :: (t ++ quote :: (u ++ colon :: s)))).outcome =
      .ok (⟨.value, openBrace :: opened⟩, s) := by
  obtain ⟨h, ha⟩ := ahead?_blank hw (show isSpace quote = false by rfl)
    (t ++ quote :: (u ++ colon :: s))
  obtain ⟨_, hs⟩ := outcome_andThen
    (f := fun _ t _ => Result.map (fun _ => (⟨.value, openBrace :: opened⟩ : Step)) (afterColon t))
    (literal_chars ht (u ++ colon :: s))
  rw [part, if_neg (by decide), ha]
  simp only [if_true, outcome_widen]
  rw [hs, outcome_map, afterColon_blank hu]
  rfl

lemma resume_cons (bracket : UInt8) (opened s : Bytes) :
    resume (bracket :: opened) s = (run ⟨.nextPart, bracket :: opened⟩ s).outcome := by
  rw [resume, if_neg (List.cons_ne_nil _ _)]

lemma resume_closing {w : Bytes} (hw : Blank w) {bracket : UInt8}
    (hb : isSpace (closing bracket) = false) (opened s : Bytes) :
    resume (bracket :: opened) (w ++ closing bracket :: s) = resume opened s := by
  rw [resume_cons]
  exact run_of_value (inside_closing hw hb false opened s)

lemma run_closing {w : Bytes} (hw : Blank w) {bracket : UInt8}
    (hb : isSpace (closing bracket) = false) (opened s : Bytes) :
    (run ⟨.firstPart, bracket :: opened⟩ (w ++ closing bracket :: s)).outcome = resume opened s :=
  run_of_value (inside_closing hw hb true opened s)

lemma run_firstItem {w : Bytes} (hw : Blank w) {b : UInt8} (hb : StartsValue b) (opened s : Bytes) :
    (run ⟨.firstPart, openBracket :: opened⟩ (w ++ b :: s)).outcome =
      (run ⟨.value, openBracket :: opened⟩ (b :: s)).outcome := by
  refine run_congr ?_
  rw [step_value, ← part_array]
  exact inside_first hw hb.1 (by exact hb.2) opened s

lemma resume_item {w : Bytes} (hw : Blank w) (opened s : Bytes) :
    resume (openBracket :: opened) (w ++ comma :: s) =
      (run ⟨.value, openBracket :: opened⟩ s).outcome := by
  rw [resume_cons]
  refine run_congr ?_
  rw [step_value, ← part_array]
  exact inside_comma hw (by decide) opened s

lemma run_firstMember {w t u : Bytes} {cs : List Char} (hw : Blank w) (ht : SpellsChars cs t)
    (hu : Blank u) (opened s : Bytes) :
    (run ⟨.firstPart, openBrace :: opened⟩
      (w ++ quote :: (t ++ quote :: (u ++ colon :: s)))).outcome =
      (run ⟨.value, openBrace :: opened⟩ s).outcome := by
  refine run_of_inside ?_ (by simp)
  exact (inside_first hw rfl (by decide) opened _).trans (part_object .nil ht hu opened s)

lemma resume_member {w w' t u : Bytes} {cs : List Char} (hw : Blank w) (hw' : Blank w')
    (ht : SpellsChars cs t) (hu : Blank u) (opened s : Bytes) :
    resume (openBrace :: opened)
      (w ++ comma :: (w' ++ quote :: (t ++ quote :: (u ++ colon :: s)))) =
      (run ⟨.value, openBrace :: opened⟩ s).outcome := by
  rw [resume_cons]
  refine run_of_inside ?_ (by simp)
  exact (inside_comma hw (by decide) opened _).trans (part_object hw' ht hu opened s)

mutual

theorem run_spelled {v : Value} {w b rest : Bytes} (hw : Blank w) (hb : Spells v b) (hr : Ends rest)
    (opened : Bytes) : (run ⟨.value, opened⟩ (w ++ (b ++ rest))).outcome = resume opened rest := by
  have hstep {c : UInt8} (hc : c = openBracket ∨ c = openBrace) (s : Bytes) :
      (run ⟨.value, opened⟩ (w ++ c :: s)).outcome = (run ⟨.firstPart, c :: opened⟩ s).outcome :=
    run_of_inside (by rw [step_value, value_bracket hw hc]) (by simp)
  -- The items of a collection are passed over with its bracket on top of the brackets opened before.
  cases hb with
  | null | yes | no | number | text =>
    refine run_of_value ?_
    rw [step_value]
    exact value_scalar rfl hw (by constructor <;> assumption) hr opened
  | emptyArray hu =>
    rw [List.cons_append, List.append_assoc, hstep (.inl rfl)]
    exact run_closing hu rfl opened rest
  | emptyObject hu =>
    rw [List.cons_append, List.append_assoc, hstep (.inr rfl)]
    exact run_closing hu rfl opened rest
  | @array v vs u b u' c hu hb hu' hc =>
    have hs : openBracket :: (u ++ (b ++ (u' ++ (c ++ [closeBracket])))) ++ rest =
        openBracket :: (u ++ (b ++ (u' ++ (c ++ closeBracket :: rest)))) := by simp
    have hv := run_spelled .nil hb (ends_items hu' hc rest) (openBracket :: opened)
    rw [run_items hu' hc] at hv
    obtain ⟨d, t, rfl, hd⟩ := hb.head
    rw [hs, hstep (.inl rfl), List.cons_append, run_firstItem hu hd]
    exact hv
  | @object k v ms u b u' c hu hb hu' hc =>
    obtain ⟨t, w₁, w₂, d, hb, ht, hw₁, hw₂, hd⟩ := hb.parts
    have hs : openBrace :: (u ++ (b ++ (u' ++ (c ++ [closeBrace])))) ++ rest =
        openBrace :: (u ++ quote :: (t ++ quote ::
          (w₁ ++ colon :: (w₂ ++ (d ++ (u' ++ (c ++ closeBrace :: rest))))))) := by simp [hb]
    rw [hs, hstep (.inr rfl), run_firstMember hu ht hw₁,
      run_spelled hw₂ hd (ends_members hu' hc rest), run_members hu' hc]
termination_by b.length
decreasing_by all_goals (subst_vars; simp only [List.length_cons, List.length_append]; omega)

theorem run_items {vs : List Value} {w c : Bytes} (hw : Blank w) (hc : SpellsItems vs c)
    (opened rest : Bytes) :
    resume (openBracket :: opened) (w ++ (c ++ closeBracket :: rest)) = resume opened rest := by
  cases hc with
  | nil => exact resume_closing hw rfl opened rest
  | @cons v vs w₁ b w₂ c hw₁ hb hw₂ hc =>
    have hs : comma :: (w₁ ++ (b ++ (w₂ ++ c))) ++ closeBracket :: rest =
        comma :: (w₁ ++ (b ++ (w₂ ++ (c ++ closeBracket :: rest)))) := by simp
    rw [hs, resume_item hw, run_spelled hw₁ hb (ends_items hw₂ hc rest), run_items hw₂ hc]
termination_by c.length
decreasing_by all_goals (subst_vars; simp only [List.length_cons, List.length_append]; omega)

theorem run_members {ms : List (String × Value)} {w c : Bytes} (hw : Blank w)
    (hc : SpellsMembers ms c) (opened rest : Bytes) :
    resume (openBrace :: opened) (w ++ (c ++ closeBrace :: rest)) = resume opened rest := by
  cases hc with
  | nil => exact resume_closing hw rfl opened rest
  | @cons k v ms u b u' c hu hb hu' hc =>
    obtain ⟨t, w₁, w₂, d, hb, ht, hw₁, hw₂, hd⟩ := hb.parts
    have hs : comma :: (u ++ (b ++ (u' ++ c))) ++ closeBrace :: rest =
        comma :: (u ++ quote :: (t ++ quote ::
          (w₁ ++ colon :: (w₂ ++ (d ++ (u' ++ (c ++ closeBrace :: rest))))))) := by simp [hb]
    rw [hs, resume_member hw hu ht hw₁, run_spelled hw₂ hd (ends_members hu' hc rest),
      run_members hu' hc]
termination_by c.length
decreasing_by all_goals (subst_vars; simp only [List.length_cons, List.length_append]; omega)

end

end Skip

lemma skip_decodes : skip.Decodes fun _ => .ok () :=
  fun hw hb hr => Skip.run_spelled hw hb hr []

end Highlight.Json
