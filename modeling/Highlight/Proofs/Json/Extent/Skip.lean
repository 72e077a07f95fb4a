import Highlight.Proofs.Json.Extent.Collection
import Highlight.Proofs.Json.Skip

/-! What is taken for a value that is passed over: it closes every bracket that it opens, of either kind. -/

namespace Highlight.Json.Skip

open Result Number

/-! ### Literals and numbers -/

lemma literal_ends : Reader.Ends literal fun _ c => Runs .inside .outside c := by
  intro s
  induction hn : s.length using Nat.strong_induction_on generalizing s with
  | _ n ih =>
    subst hn
    cases s with
    | nil =>
      refine .of_error (p := []) ?_
      rw [literal]
      rfl
    | cons b s =>
      rw [List.length_cons] at ih
      by_cases hq : b = quote
      · subst hq
        refine .of_ok (c := [quote]) (a := ()) runs_closing (fun rest => ?_) s
        rw [List.singleton_append, literal.eq_def]
        rfl
      by_cases hb : b = backslash
      · subst hb
        cases s with
        | nil =>
          refine .of_error (p := []) ?_
          rw [literal]
          simp only [hq, if_false, if_true]
          rfl
        | cons c s =>
          rw [List.length_cons] at ih
          have hlit (u : Bytes) (hu : u.length ≤ s.length) := ih u.length (by omega) u rfl
          by_cases hc : (simpleEscape? c).isSome = true
          · refine (hlit s (Nat.le_refl _)).behind [backslash, c] (fun t _ => ?_) fun _ d hd =>
              runs_backslash.cons ((runs_escaped c).cons hd)
            rw [List.cons_append, List.singleton_append, literal]
            simp only [hq, hc, if_false, if_true, outcome_widen]
          by_cases hu : c = 0x75
          · subst hu
            have hs : Reader.TakesFrom Anything (fun s => (hexEscape s).andThen fun _ t _ => literal t)
                (fun _ c => Runs .inside .outside c) s :=
              (hexEscape_ends.takes s).andThen (fun _ t ht => hlit t (Nat.le_of_lt ht))
                fun _ c _ d hc hd => hc.runs.append hd
            refine hs.behind [backslash, 0x75] (fun t _ => ?_) fun _ d hd =>
              runs_backslash.cons ((runs_escaped _).cons hd)
            rw [List.cons_append, List.singleton_append, literal]
            simp only [hq, hc, Bool.false_eq_true, if_false, if_true, outcome_widen]
          · refine .of_error (p := []) ?_
            rw [literal]
            simp only [hq, hc, hu, if_false, if_true]
            rfl
      by_cases hc : b < 0x20
      · refine .of_error (p := []) ?_
        rw [literal.eq_def]
        simp only [hq, hb, hc, if_false, if_true]
        rfl
      · refine (ih s.length (Nat.lt_succ_self _) s rfl).cons (fun t => ?_) fun _ c hd =>
          (runs_inside hq hb).cons hd
        rw [literal.eq_def]
        simp only [hq, hb, hc, if_false, outcome_widen]

def rest (s : Bytes) : Except (List Json.Step) (Unit × Bytes) := .ok ((), s)

lemma rest_takesOn : TakesOn rest := takesOn_ending (f := fun _ => .ok ()) fun _ _ _ h => h

lemma afterDigits_takesOn {f : Bytes → Except (List Json.Step) (Unit × Bytes)} (hf : TakesOn f) :
    TakesOn fun s => if s.head?.any isDigit then f (afterDigits s) else .error [] := by
  intro s a r h
  dsimp only at h
  split at h
  · next hs =>
    obtain ⟨ds, u, hds, hu, rfl⟩ := exists_digits s
    rw [afterDigits, dropWhile_digits hds hu] at h
    obtain ⟨c, rfl, hc, hrc⟩ := hf u a r h
    refine ⟨ds ++ c, by simp, (numeric_digits hds).append hc, fun r' hr => ?_⟩
    have hsame : SameNext (c ++ r) (c ++ r') := hr.append c
    have hn : (ds ++ (c ++ r')).head?.any isDigit = true := by
      have hh : (ds ++ (c ++ r)).head? = (ds ++ (c ++ r')).head? := hsame.append ds
      rw [← hh]
      exact hs
    rw [List.append_assoc]
    dsimp only
    rw [if_pos hn, afterDigits, dropWhile_digits hds (hu.of_sameNext hsame)]
    exact hrc r' hr
  · cases h

lemma afterDigits_cons {b : UInt8} (hb : isDigit b = true) (s : Bytes) :
    afterDigits (b :: s) = afterDigits s := List.dropWhile_cons_of_pos hb

lemma exponent_outcome (s : Bytes) : (exponent s).outcome =
    if s.head?.any (fun b => b == 0x2b || b == minus) then
      if s.tail.head?.any isDigit then rest (afterDigits s.tail) else .error []
    else if s.head?.any isDigit then rest (afterDigits s) else .error [] := by
  cases s with
  | nil => rfl
  | cons b s =>
    by_cases hb : b = 0x2b ∨ b = minus
    · have hd : isDigit b = false := by rcases hb with rfl | rfl <;> rfl
      cases s with
      | nil =>
        simp only [exponent, hd, hb, Bool.false_eq_true, if_false, if_true]
        rw [if_pos (by simpa using hb)]
        rfl
      | cons c s =>
        by_cases hc : isDigit c = true
        · simp [exponent, hd, hb, hc, afterDigits_cons hc, rest]
        · simp [exponent, hd, hb, hc]
          rfl
    · by_cases hd : isDigit b = true
      · simp [exponent, hd, hb, afterDigits_cons hd, rest]
      · simp [exponent, hd, hb]
        rfl

lemma exponent_takesOn : TakesOn fun s => (exponent s).outcome := by
  simp only [exponent_outcome]
  refine (afterDigits_takesOn rest_takesOn).ite (fun b hb => ?_) (afterDigits_takesOn rest_takesOn)
  exact occurs_sign (by simpa using hb)

def afterExponent (s : Bytes) : Except (List Json.Step) (Unit × Bytes) :=
  if s.head?.any isExponentMark then (exponent s.tail).outcome else rest s

def afterFraction (s : Bytes) : Except (List Json.Step) (Unit × Bytes) :=
  if s.head?.any (· == 0x2e) then
    if s.tail.head?.any isDigit then afterExponent (afterDigits s.tail) else .error []
  else afterExponent s

lemma afterExponent_takesOn : TakesOn afterExponent :=
  rest_takesOn.ite (fun _ hb => .inr (.inl hb)) exponent_takesOn

lemma afterFraction_takesOn : TakesOn afterFraction := by
  refine afterExponent_takesOn.ite (fun b hb => ?_) (afterDigits_takesOn afterExponent_takesOn)
  exact .inr (.inr (.inr (.inr (beq_iff_eq.mp hb))))

lemma afterExponent_cons (b : UInt8) (s : Bytes) : afterExponent (b :: s) =
    if isExponentMark b then (exponent s).outcome else rest (b :: s) := rfl

lemma afterFraction_point (s : Bytes) : afterFraction (0x2e :: s) =
    if s.head?.any isDigit then afterExponent (afterDigits s) else .error [] := rfl

lemma afterFraction_cons {b : UInt8} (hb : b ≠ 0x2e) (s : Bytes) :
    afterFraction (b :: s) = afterExponent (b :: s) := by
  rw [afterFraction, if_neg (by simpa using hb)]

lemma number_outcome {b : UInt8} {s : Bytes} (hb : isDigit b = true)
    (hz : ¬ (b = 0x30 ∧ s.head?.any isDigit = true)) :
    (number (b :: s)).outcome = afterFraction (afterDigits s) := by
  rw [number]
  simp only [hb, hz, Bool.not_true, Bool.false_eq_true, if_false]
  split
  · next h =>
    rw [h]
    rfl
  · next c t h =>
    refine Eq.trans ?_ (congrArg afterFraction h.symm)
    by_cases hc : c = 0x2e
    · subst hc
      rw [afterFraction_point, if_neg (by decide), if_pos rfl]
      by_cases ht : t.head?.any isDigit = true
      · simp only [ht, Bool.not_true, Bool.false_eq_true, if_false, if_true]
        split
        · next h₂ =>
          rw [h₂]
          rfl
        · next e u h₂ =>
          refine Eq.trans ?_ (congrArg afterExponent h₂.symm)
          rw [afterExponent_cons]
          split <;> simp [rest]
      · simp [ht]
        rfl
    · rw [afterFraction_cons hc, afterExponent_cons]
      split
      · rw [outcome_widen]
      · simp [rest]

lemma number_takes : number.Takes fun _ c => Numeric c := by
  intro s
  cases s with
  | nil => exact .of_error (p := []) rfl
  | cons b s =>
    by_cases hb : isDigit b = true
    · by_cases hz : b = 0x30 ∧ s.head?.any isDigit = true
      · refine .of_error (p := []) ?_
        rw [number]
        simp [hz, show isDigit 0x30 = true by decide]
        rfl
      · obtain ⟨ds, u, hds, hu, rfl⟩ := exists_digits s
        have hd : ∀ c ∈ b :: ds, isDigit c = true := by simpa [hb] using hds
        refine TakesOn.digits afterFraction_takesOn hd hu fun v hv => ?_
        rw [number_outcome hb, afterDigits, dropWhile_digits hds hv]
        -- A leading zero stands alone, whatever comes after the digits.
        cases ds with
        | nil => simpa [noDigit_iff] using fun _ => hv
        | cons c ds => simpa [hds c (by simp)] using hz
    · refine .of_error (p := []) ?_
      rw [number]
      simp [hb]
      rfl

/-! ### Steps -/

def Reaches (i : ℕ) (e : Step) (c : Bytes) : Prop := Moves i e.opened.length 0 c

lemma Reaches.after {i : ℕ} {e : Step} {v c : Bytes} (hv : Runs .outside .outside v)
    (hc : Reaches i e c) : Reaches i e (v ++ c) := Moves.after hv hc

lemma reaches_of_runs (e : Step) {c : Bytes} (hc : Runs .outside .outside c) :
    Reaches e.opened.length e c := (Moves.of_runs hc _).mono (Nat.zero_le _)

lemma runs_quoted {c : Bytes} (hc : Runs .inside .outside c) : Runs .outside .outside (quote :: c) :=
  runs_opening.cons hc

lemma value_takes (opened : Bytes) : (value opened).Takes (Reaches opened.length) := by
  intro s
  refine .afterSpace ?_ fun w e c hw hc => hc.after hw.runs
  have hnumber (s : Bytes) : Reader.TakesFrom SameNext
      (fun s => Result.map (fun _ => (⟨.nextPart, opened⟩ : Step)) (number s))
      (fun e c => e = ⟨.nextPart, opened⟩ ∧ Numeric c) s := (number_takes s).map fun _ _ hc => ⟨rfl, hc⟩
  cases skipSpace s with
  | nil => exact .of_error (p := []) rfl
  | cons b s =>
    cases hw : wordOf? b with
    | some w =>
      obtain ⟨letters, x⟩ := w
      cases hl : word letters s with
      | error f =>
        refine .of_error (p := f.path) ?_
        simp [hw, hl, Except.map]
      | ok r =>
        obtain ⟨r, hr⟩ := r
        obtain rfl := eq_append_of_word hl
        refine .of_ok (c := b :: letters) (a := ⟨.nextPart, opened⟩)
          (reaches_of_runs ⟨.nextPart, opened⟩ (runs_word hw)) (fun rest => ?_) r
        obtain ⟨_, ht⟩ := word_append letters rest
        rw [List.cons_append]
        simp [hw, ht, Except.map]
    | none =>
      by_cases hm : b = minus
      · refine (hnumber s).cons (fun t => ?_) fun e c hc => ?_
        · simp only [hw, if_pos hm, outcome_widen]
        · obtain ⟨rfl, hc⟩ := hc
          exact reaches_of_runs ⟨.nextPart, opened⟩ (hc.cons (occurs_sign (.inr hm))).runs
      by_cases hd : isDigit b = true
      · refine ((hnumber (b :: s)).imp fun e c hc => ?_).congr fun t => ?_
        · obtain ⟨rfl, hc⟩ := hc
          exact reaches_of_runs ⟨.nextPart, opened⟩ hc.runs
        · simp only [hw, if_neg hm, if_pos hd]
      by_cases hq : b = quote
      · subst hq
        have hl : Reader.TakesFrom SameNext
            (fun s => Result.map (fun _ => (⟨.nextPart, opened⟩ : Step)) (literal s))
            (fun e c => Reaches opened.length e (quote :: c)) s :=
          (literal_ends.takes s).map fun _ _ hc =>
            reaches_of_runs ⟨.nextPart, opened⟩ (runs_quoted hc)
        refine hl.cons (fun t => ?_) fun _ _ hc => hc
        simp only [hw, if_neg hm, if_neg hd, if_true, outcome_widen]
      by_cases hb : b = openBracket ∨ b = openBrace
      · have hr : Reaches opened.length ⟨.firstPart, b :: opened⟩ [b] :=
          (moves_opening hb _).mono (Nat.zero_le _)
        refine .of_ok hr (fun rest => ?_) s
        rw [List.singleton_append]
        simp [hw, hm, hd, hq, hb]
      · refine .of_error (p := []) ?_
        simp [hw, hm, hd, hq, hb]
        rfl

lemma part_takes (bracket : UInt8) (opened : Bytes) :
    (part bracket opened).Takes (Reaches (opened.length + 1)) := by
  intro s
  by_cases hb : bracket = openBracket
  · have hv := value_takes (bracket :: opened) s
    rw [show part bracket opened = value (bracket :: opened) by
      funext s
      rw [part, if_pos hb]]
    exact hv
  cases ha : ahead? s with
  | none =>
    refine .of_error (p := []) ?_
    simp only [part, if_neg hb, ha]
    rfl
  | some p =>
    obtain ⟨b, t, ht⟩ := p
    obtain ⟨w, hw, -, rfl⟩ := exists_of_ahead? ha
    by_cases hq : b = quote
    · subst hq
      have hk : Reader.TakesFrom SameNext (fun s => (literal s).andThen fun _ t _ =>
          Result.map (fun _ => (⟨.value, bracket :: opened⟩ : Step)) (afterColon t))
          (fun e c => Reaches (opened.length + 1) e (quote :: c)) t := by
        refine (literal_ends.takes t).andThen
          (f := fun _ t => Result.map (fun _ => (⟨.value, bracket :: opened⟩ : Step)) (afterColon t))
          (Q := fun _ e c => e = ⟨.value, bracket :: opened⟩ ∧ Runs .outside .outside c)
          (fun _ u _ => ?_) ?_
        · refine (afterColon_ends.takes u).map fun _ c hc => ⟨rfl, ?_⟩
          obtain ⟨w, hw, rfl⟩ := hc
          exact hw.separates_colon.runs
        · rintro _ c e d hc ⟨rfl, hd⟩
          exact reaches_of_runs ⟨.value, bracket :: opened⟩ ((runs_quoted hc).append hd)
      rw [List.append_cons]
      refine hk.behind (w ++ [quote]) (fun u _ => ?_) fun e c hc => ?_
      · obtain ⟨_, ha'⟩ := ahead?_blank hw (show isSpace quote = false by rfl) u
        rw [List.append_assoc, List.singleton_append]
        simp only [part, if_neg hb, ha', if_true, outcome_widen]
      · rw [List.append_assoc]
        exact hc.after hw.runs
    · refine .of_error (p := []) ?_
      simp only [part, if_neg hb, ha, if_neg hq]
      rfl

lemma closing_cases (bracket : UInt8) :
    closing bracket = closeBracket ∨ closing bracket = closeBrace := by
  rw [closing]
  split
  · exact .inl rfl
  · exact .inr rfl

lemma inside_takes (first : Bool) (bracket : UInt8) (opened : Bytes) :
    (inside first bracket opened).Takes (Reaches (opened.length + 1)) := by
  intro s
  have hsp : isSpace (closing bracket) = false := by
    rcases closing_cases bracket with h | h <;> rw [h] <;> rfl
  cases ha : ahead? s with
  | none =>
    refine .of_error (p := (endFault bracket).path) ?_
    simp only [inside, ha]
    rfl
  | some p =>
    obtain ⟨b, t, ht⟩ := p
    obtain ⟨w, hw, hb, rfl⟩ := exists_of_ahead? ha
    by_cases hc : b = closing bracket
    · subst hc
      rw [List.append_cons]
      refine .of_ok (a := ⟨.nextPart, opened⟩) ?_ (fun rest => ?_) t
      · exact .after hw.runs ((moves_closing (closing_cases bracket) _).mono (Nat.zero_le _))
      · rw [List.append_assoc]
        exact inside_closing hw hsp first opened rest
    cases first with
    | true =>
      refine (part_takes bracket opened (b :: t)).behind w (fun u hu => ?_) fun e c hc =>
        hc.after hw.runs
      obtain ⟨u, rfl⟩ := exists_of_sameNext hu
      exact inside_first hw hb hc opened u
    | false =>
      by_cases hm : b = comma
      · subst hm
        rw [List.append_cons]
        refine (part_takes bracket opened t).behind (w ++ [comma]) (fun u _ => ?_) fun e c he =>
          he.after (hw.separates_comma .nil).runs
        rw [List.append_assoc]
        exact inside_comma hw hc opened u
      · refine .of_error (p := []) ?_
        simp only [inside, ha, if_neg hc, if_neg hm, Bool.false_eq_true, if_false]
        rfl

lemma step_takes (e : Step) : (step e).Takes (Reaches e.opened.length) := by
  obtain ⟨expecting, opened⟩ := e
  cases opened with
  | nil => cases expecting <;> exact value_takes []
  | cons bracket opened =>
    cases expecting with
    | value => exact value_takes (bracket :: opened)
    | firstPart => exact inside_takes true bracket opened
    | nextPart => exact inside_takes false bracket opened

/-! ### Runs -/

def Done (e : Step) : Prop := e = ⟨.nextPart, []⟩

lemma run_of_done {e e' : Step} {s t : Bytes} (h : (step e s).outcome = .ok (e', t)) (hd : Done e') :
    (run e s).outcome = .ok ((), t) := by
  subst hd
  exact run_of_value h

lemma run_of_not_done {e e' : Step} {s t : Bytes} (h : (step e s).outcome = .ok (e', t))
    (hd : ¬ Done e') : (run e s).outcome = (run e' t).outcome := by
  obtain ⟨expecting, opened⟩ := e'
  cases expecting with
  | value | firstPart => exact run_of_inside h (by simp)
  | nextPart =>
    have ho : opened ≠ [] := by
      rintro rfl
      exact hd rfl
    rw [run_of_value h, resume, if_neg ho]

lemma run_takes (e : Step) : Reader.Takes (run e) fun _ c => Moves e.opened.length 0 0 c := by
  intro s
  induction hn : s.length using Nat.strong_induction_on generalizing e s with
  | _ n ih =>
    subst hn
    intro a rest h
    cases hs : (step e s).outcome with
    | error p =>
      rw [run_of_error hs] at h
      cases h
    | ok q =>
      obtain ⟨e', t⟩ := q
      have hlt := length_of_outcome hs
      obtain ⟨c, rfl, hc, hrc⟩ := step_takes e s e' t hs
      by_cases hd : Done e'
      · rw [run_of_done hs hd] at h
        obtain ⟨-, rfl⟩ := Prod.mk.inj (Except.ok.inj h)
        obtain rfl := hd
        exact ⟨c, rfl, hc, fun rest' hrest => run_of_done (hrc rest' hrest) rfl⟩
      · rw [run_of_not_done hs hd] at h
        obtain ⟨d, rfl, hd', hrd⟩ := ih t.length hlt e' t rfl a rest h
        refine ⟨c ++ d, by simp, hc.append hd', fun rest' hrest => ?_⟩
        have hne := ne_nil_of_outcome h
        rw [List.append_assoc, run_of_not_done (hrc _ (sameNext_append hne rest rest')) hd]
        exact hrd rest' hrest

end Highlight.Json.Skip

namespace Highlight.Json

lemma skip_takes : skip.Takes fun _ c => Nests 0 c := Skip.run_takes ⟨.value, []⟩

end Highlight.Json
