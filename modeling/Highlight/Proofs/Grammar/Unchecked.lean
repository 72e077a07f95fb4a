import Highlight.Proofs.Grammar.Delimited
import Highlight.Proofs.Json.Extent.Legible

/-! Which bytes of a grammar in JSON need not be text. The value of a member that no grammar has is passed over,
and any bytes may stand between its quotation marks; every other byte of the document belongs to text. -/

namespace Highlight.Json

open Result Bytes

/-- A member that no grammar has, and what follows it up to the next such member or to the end. -/
structure Gap where
  key : Bytes
  value : Bytes
  after : Bytes

def assemble (head : Bytes) (gaps : List Gap) : Bytes :=
  head ++ gaps.flatMap fun p => p.key ++ (p.value ++ p.after)

def Passed (u : Bytes) : Prop := ∃ rest, (skip (u ++ rest)).outcome = .ok ((), rest)

structure Gap.Unknown (p : Gap) : Prop where
  key : ∃ k kb w, k ∉ Grammar.Fields.names ∧ SpellsText k kb ∧ Blank w ∧ p.key = kb ++ (w ++ [colon])
  value : Passed p.value
  after : Legible p.after

def Quoted (u : Bytes) : Prop := ∃ raw, (∀ b ∈ raw, IsPlain b) ∧ u = quote :: (raw ++ [quote])

def Gap.Refills (p q : Gap) : Prop := q = p ∨ ∃ u, Quoted u ∧ q = { p with value := u }

lemma skip_quoted {u : Bytes} (h : Quoted u) (rest : Bytes) : (skip (u ++ rest)).outcome = .ok ((), rest) := by
  obtain ⟨raw, hraw, rfl⟩ := h
  have hl : (Skip.literal (raw ++ quote :: rest)).outcome = .ok ((), rest) := by
    rw [Skip.literal_plains hraw]
    exact Skip.literal_chars .nil rest
  have hv := Skip.value_quote .nil hl []
  rw [← Skip.step_value] at hv
  rw [List.cons_append, List.append_assoc]
  exact Skip.run_of_value hv

lemma skip_refilled {p q : Gap} {rest rest' : Bytes} (h : (skip (p.value ++ rest)).outcome = .ok ((), rest))
    (hq : p.Refills q) (hrest : SameNext rest rest') : (skip (q.value ++ rest')).outcome = .ok ((), rest') := by
  rcases hq with rfl | ⟨u, hu, rfl⟩
  · obtain ⟨c, hc, -, hagain⟩ := skip_takes _ () rest h
    obtain rfl := List.append_cancel_right hc
    exact hagain rest' hrest
  · exact skip_quoted hu rest'

lemma Gap.Refills.key {p q : Gap} (h : p.Refills q) : q.key = p.key := by
  rcases h with rfl | ⟨u, -, rfl⟩ <;> rfl

lemma Gap.Refills.after {p q : Gap} (h : p.Refills q) : q.after = p.after := by
  rcases h with rfl | ⟨u, -, rfl⟩ <;> rfl

/-! ### Members -/

lemma memberValue_colon {α : Type} (value : Reader α) (key : String) {w : Bytes} (hw : Blank w) (t : Bytes) :
    (memberValue key value ((w ++ [colon]) ++ t)).outcome = ((value t).within (.key key)).outcome := by
  obtain ⟨_, hs⟩ := outcome_andThen (f := fun _ t _ => (value t).within (.key key)) (afterColon_blank hw t)
  rw [List.append_assoc]
  exact hs

lemma exists_of_memberValue {α : Type} {value : Reader α} {key : String} {s rest : Bytes} {a : α}
    (h : (memberValue key value s).outcome = .ok (a, rest)) :
    ∃ w t, Blank w ∧ s = (w ++ [colon]) ++ t ∧ (value t).outcome = .ok (a, rest) := by
  cases hc : (afterColon s).outcome with
  | error p =>
    rw [memberValue, outcome_andThen_error hc] at h
    cases h
  | ok q =>
    obtain ⟨⟨⟩, t⟩ := q
    obtain ⟨_, rfl, ⟨w, hw, rfl⟩, -⟩ := afterColon_ends s () t hc
    rw [memberValue_colon value key hw] at h
    exact ⟨w, t, hw, rfl, outcome_within_eq_ok.mp h⟩

lemma member_unknown (f : Grammar.Fields) {key : String} (hkey : key ∉ Grammar.Fields.names) :
    Fields.member f key = fun s => Result.map (fun _ => f) (memberValue key skip s) := by
  simp only [Grammar.Fields.names, List.mem_cons, List.not_mem_nil, or_false, not_or] at hkey
  obtain ⟨h₁, h₂, h₃, h₄⟩ := hkey
  rw [Fields.member, if_neg h₁, if_neg h₂, if_neg h₃, if_neg h₄]

/-- What is taken in pieces, of which only the values of members that no grammar has need not be text. -/
structure Reader.Pieces {α : Type} (r : Reader α) (a : α) (head : Bytes) (gaps : List Gap) : Prop where
  legible : Legible head
  unknown : ∀ p ∈ gaps, p.Unknown
  again : ∀ gaps', List.Forall₂ Gap.Refills gaps gaps' →
    ∀ rest, (r (assemble head gaps' ++ rest)).outcome = .ok (a, rest)

lemma sameNext_assemble {head rest : Bytes} {gaps gaps' : List Gap} (hne : assemble head gaps ≠ [])
    (hg : ∀ p ∈ gaps, p.Unknown) (h : List.Forall₂ Gap.Refills gaps gaps') (rest' : Bytes) :
    SameNext (assemble head gaps ++ rest) (assemble head gaps' ++ rest') := by
  cases head with
  | cons b head => rfl
  | nil =>
    cases h with
    | nil => exact (hne rfl).elim
    | @cons p q gaps gaps' hpq _ =>
      obtain ⟨k, kb, w, -, ⟨t, -, rfl⟩, -, hkey⟩ := (hg p (by simp)).key
      simp [assemble, SameNext, hpq.key, hkey]

lemma exists_of_members_part {f f' : Grammar.Fields} {first : Bool} {s t rest : Bytes}
    (hn : ∃ ht, nextKey first s = .ok (.part t ht))
    (h : (members Fields.member f first s).outcome = .ok (f', rest)) : ∃ key u f₁ x,
      (literal t).outcome = .ok (key, u) ∧ (Fields.member f key u).outcome = .ok (f₁, x) ∧
        (members Fields.member f₁ false x).outcome = .ok (f', rest) := by
  cases hl : (literal t).outcome with
  | error p =>
    obtain ⟨_, hn⟩ := hn
    rw [members, hn] at h
    simp only [outcome_widen] at h
    rw [outcome_andThen_error (by rw [outcome_within, hl]; rfl)] at h
    cases h
  | ok q =>
    obtain ⟨key, u⟩ := q
    rw [members_part hn hl] at h
    cases hm : (Fields.member f key u).outcome with
    | error p => simp [hm] at h
    | ok q =>
      obtain ⟨f₁, x⟩ := q
      simp only [hm] at h
      exact ⟨key, u, f₁, x, rfl, hm, h⟩

section Members

variable {f f₁ f' : Grammar.Fields} {first : Bool} {key : String} {v k u head rest : Bytes} {gaps : List Gap}
  (hv : Separates v) (hk : SpellsText key k)
  (hpart : ∀ {t u f₁}, (Fields.member f key t).outcome = .ok (f₁, u) →
    (members Fields.member f first (v ++ (k ++ t))).outcome = (members Fields.member f₁ false u).outcome)
  (hm : (Fields.member f key u).outcome = .ok (f₁, assemble head gaps ++ rest)) (hne : assemble head gaps ≠ [])
  (hp : Reader.Pieces (members Fields.member f₁ false) f' head gaps)

include hv hk hpart hm hne hp

lemma pieces_known (hkey : key ∈ Grammar.Fields.names) : ∃ c, u = c ++ (assemble head gaps ++ rest) ∧
    Reader.Pieces (members Fields.member f first) f' (v ++ (k ++ (c ++ head))) gaps := by
  obtain ⟨c, rfl, hc, hagain⟩ := member_checks f hkey u f₁ _ hm
  refine ⟨c, rfl, hv.legible.append (hk.legible.append (hc.append hp.legible)), hp.unknown, ?_⟩
  intro gaps' hg rest'
  have hmember := hagain _ (sameNext_assemble hne hp.unknown hg rest')
  have hassoc : assemble (v ++ (k ++ (c ++ head))) gaps' ++ rest' =
      v ++ (k ++ (c ++ (assemble head gaps' ++ rest'))) := by simp [assemble]
  rw [hassoc, hpart hmember]
  exact hp.again gaps' hg rest'

lemma pieces_unknown (hkey : key ∉ Grammar.Fields.names) :
    ∃ w c, u = (w ++ [colon]) ++ (c ++ (assemble head gaps ++ rest)) ∧
      Reader.Pieces (members Fields.member f first) f' v (⟨k ++ (w ++ [colon]), c, head⟩ :: gaps) := by
  have hskip := member_unknown f hkey
  rw [hskip, outcome_map] at hm
  cases ho : (memberValue key skip u).outcome with
  | error p =>
    rw [ho] at hm
    cases hm
  | ok q =>
    obtain ⟨⟨⟩, x⟩ := q
    rw [ho] at hm
    obtain ⟨rfl, rfl⟩ := Prod.mk.inj (Except.ok.inj hm)
    obtain ⟨w, t, hw, rfl, ht⟩ := exists_of_memberValue ho
    obtain ⟨c, rfl, -, -⟩ := skip_takes t () _ ht
    have hgap : Gap.Unknown ⟨k ++ (w ++ [colon]), c, head⟩ :=
      ⟨⟨key, k, w, hkey, hk, hw, rfl⟩, ⟨_, ht⟩, hp.legible⟩
    refine ⟨w, c, rfl, hv.legible, List.forall_mem_cons.mpr ⟨hgap, hp.unknown⟩, ?_⟩
    intro gaps' hg rest'
    obtain ⟨q, gaps', hq, htail, rfl⟩ := List.forall₂_cons_left_iff.mp hg
    have hvalue := skip_refilled ht hq (sameNext_assemble hne hp.unknown htail rest')
    have hmember : (Fields.member f key
        ((w ++ [colon]) ++ (q.value ++ (assemble head gaps' ++ rest')))).outcome =
          .ok (f, assemble head gaps' ++ rest') := by
      rw [hskip, outcome_map, memberValue_colon skip key hw, outcome_within_eq_ok.mpr hvalue]
      rfl
    have hassoc : assemble v (q :: gaps') ++ rest' =
        v ++ (k ++ ((w ++ [colon]) ++ (q.value ++ (assemble head gaps' ++ rest')))) := by
      simp [assemble, hq.key, hq.after]
    rw [hassoc, hpart hmember]
    exact hp.again gaps' htail rest'

end Members

lemma members_pieces {f f' : Grammar.Fields} {first : Bool} {s rest : Bytes}
    (h : (members Fields.member f first s).outcome = .ok (f', rest)) : ∃ head gaps,
      s = assemble head gaps ++ rest ∧ Reader.Pieces (members Fields.member f first) f' head gaps := by
  -- A member that a grammar has goes in front of the head of the members after it, any other one makes a gap.
  induction hs : s.length using Nat.strong_induction_on generalizing s f first with
  | _ m ih =>
    cases hn : nextKey first s with
    | error e =>
      rw [members, hn] at h
      cases h
    | ok next =>
      cases next with
      | closed t ht =>
        obtain ⟨w, hw, rfl⟩ : ∃ w, Blank w ∧ s = w ++ closeBrace :: t := blank_of_next_closed hn
        have hclosed := members_closed hw Fields.member f first
        rw [hclosed] at h
        obtain ⟨rfl, rfl⟩ := Prod.mk.inj (Except.ok.inj h)
        refine ⟨w ++ [closeBrace], [], by simp [assemble], hw.separates.legible.append (by decide), by simp, ?_⟩
        intro gaps' hg rest'
        obtain rfl := List.forall₂_nil_left_iff.mp hg
        have hassoc : assemble (w ++ [closeBrace]) [] ++ rest' = w ++ closeBrace :: rest' := by simp [assemble]
        rw [hassoc]
        exact hclosed rest'
      | part t ht =>
        obtain ⟨v, hv, rfl, hagain⟩ := separator_of_nextKey hn
        obtain ⟨key, u, f₁, x, hl, hm, hx⟩ := exists_of_members_part (hagain t) h
        obtain ⟨k, rfl, hk, hlit⟩ := literal_ends t key u hl
        have hpart {t u : Bytes} {f₁ : Grammar.Fields} (hm : (Fields.member f key t).outcome = .ok (f₁, u)) :
            (members Fields.member f first (v ++ ((quote :: k) ++ t))).outcome =
              (members Fields.member f₁ false u).outcome := by
          rw [List.cons_append, members_part (hagain (k ++ t)) (hlit t trivial), hm]
        have hlt : x.length < m := by
          have hu := length_of_outcome hm
          simp only [List.length_append, List.length_cons] at hs
          omega
        obtain ⟨head, gaps, rfl, hp⟩ := ih x.length hlt hx rfl
        have hne := ne_nil_of_outcome hx
        by_cases hkey : key ∈ Grammar.Fields.names
        · obtain ⟨c, rfl, hpieces⟩ := pieces_known hv hk hpart hm hne hp hkey
          exact ⟨_, _, by simp [assemble], hpieces⟩
        · obtain ⟨w, c, rfl, hpieces⟩ := pieces_unknown hv hk hpart hm hne hp hkey
          exact ⟨_, _, by simp [assemble], hpieces⟩

/-! ### Grammars -/

lemma grammar_bracket {w : Bytes} (hw : Blank w) (t : Bytes) :
    (grammar (w ++ openBracket :: t)).outcome = (grammarItems t).outcome := by
  rw [grammar, outcome_afterSpace _ hw rfl]
  simp only [if_true, outcome_widen]

lemma grammar_brace {w : Bytes} (hw : Blank w) {t rest : Bytes} {g : Grammar} :
    (grammar (w ++ openBrace :: t)).outcome = .ok (g, rest) ↔
      ∃ f, (members Fields.member {} true t).outcome = .ok (f, rest) ∧ f.grammar = .ok g := by
  rw [grammar, outcome_afterSpace _ hw rfl]
  simp only [show openBrace ≠ openBracket by decide, if_false, if_true, outcome_widen, outcome_check,
    Fields.grammar]
  cases (members Fields.member {} true t).outcome with
  | error p => simp [Except.bind]
  | ok q =>
    obtain ⟨f, u⟩ := q
    cases hf : f.grammar with
    | error name => simp [Except.bind, hf]
    | ok g' => simp [Except.bind, hf, and_comm]

lemma bracket_of_grammar {s rest : Bytes} {g : Grammar} (h : (grammar s).outcome = .ok (g, rest)) :
    ∃ w t, Blank w ∧ (s = w ++ openBracket :: t ∨ s = w ++ openBrace :: t) := by
  obtain ⟨w, hw, hs, -⟩ := exists_blank s
  rw [grammar, Reader.afterSpace, outcome_widen] at h
  cases hb : skipSpace s with
  | nil =>
    rw [hb] at h
    cases h
  | cons b t =>
    rw [hb] at h hs
    by_cases hbracket : b = openBracket
    · exact ⟨w, t, hw, .inl (hbracket ▸ hs)⟩
    by_cases hbrace : b = openBrace
    · exact ⟨w, t, hw, .inr (hbrace ▸ hs)⟩
    · simp [hbracket, hbrace] at h

lemma grammar_pieces {s rest : Bytes} {g : Grammar} (h : (grammar s).outcome = .ok (g, rest)) :
    ∃ head gaps, s = assemble head gaps ++ rest ∧ grammar.Pieces g head gaps := by
  obtain ⟨w, t, hw, rfl | rfl⟩ := bracket_of_grammar h
  · rw [grammar_bracket hw] at h
    obtain ⟨c, rfl, hc, hagain⟩ := grammarItems_legible t g rest h
    refine ⟨w ++ openBracket :: c, [], by simp [assemble], ?_, by simp, fun gaps' hgaps rest' => ?_⟩
    · exact hw.separates.legible.append (.cons (by decide) hc)
    · obtain rfl := List.forall₂_nil_left_iff.mp hgaps
      have hassoc : assemble (w ++ openBracket :: c) [] ++ rest' = w ++ openBracket :: (c ++ rest') := by
        simp [assemble]
      rw [hassoc, grammar_bracket hw]
      exact hagain rest' trivial
  · obtain ⟨f, hf, hg⟩ := (grammar_brace hw).mp h
    obtain ⟨head, gaps, rfl, hp⟩ := members_pieces hf
    refine ⟨w ++ openBrace :: head, gaps, by simp [assemble], ?_, hp.unknown, fun gaps' hgaps rest' => ?_⟩
    · exact hw.separates.legible.append (.cons (by decide) hp.legible)
    · have hassoc : assemble (w ++ openBrace :: head) gaps' ++ rest' =
          w ++ openBrace :: (assemble head gaps' ++ rest') := by simp [assemble]
      rw [hassoc]
      exact (grammar_brace hw).mpr ⟨f, hp.again gaps' hgaps rest', hg⟩

end Highlight.Json

namespace Highlight.Grammar

open Json Bytes

/-- A document of which a grammar is read is text but for the values of members that no grammar has, and any
bytes between quotation marks may stand for these. -/
theorem json_legible_outside_gaps (b : Bytes) : (∃ fault, ofBytes .json b = .error (.json fault b)) ∨
    ∃ g head gaps rest, ofBytes .json b = .ok g ∧ b = assemble head gaps ++ rest ∧ Legible head ∧
      (∀ p ∈ gaps, p.Unknown) ∧ ∀ gaps', List.Forall₂ Gap.Refills gaps gaps' →
        ∀ rest', ofBytes .json (assemble head gaps' ++ rest') = .ok g := by
  by_cases hb : ∃ g, ofBytes .json b = .ok g
  · right
    obtain ⟨g, hg⟩ := hb
    obtain ⟨rest, ho⟩ := ofBytes_json_iff.mp hg
    obtain ⟨head, gaps, hassemble, hp⟩ := grammar_pieces ho
    refine ⟨g, head, gaps, rest, hg, hassemble, hp.legible, hp.unknown, fun gaps' hgaps rest' => ?_⟩
    exact ofBytes_json_iff.mpr ⟨rest', hp.again gaps' hgaps rest'⟩
  · left
    exact ofBytes_json_error fun g hg => hb ⟨g, hg⟩

def overlooked : Bytes :=
  ofString "\x7b\"x\":\"" ++ 0xff ::
    ofString "\",\"name\":\"g\",\"scopeName\":\"s\",\"fileTypes\":[],\"patterns\":[]\x7d"

theorem invalid_bytes_overlooked :
    text? overlooked = none ∧ ofBytes .json overlooked = .ok ⟨"g", "s", [], []⟩ :=
  ⟨by decide +kernel, toOption_eq_some_iff.mp (by decide +kernel)⟩

end Highlight.Grammar
