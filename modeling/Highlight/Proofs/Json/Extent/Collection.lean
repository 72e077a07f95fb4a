import Highlight.Proofs.Grammar.Depth
import Highlight.Proofs.Json.Extent.Scalar

/-! What is taken for an array, for an object and for a value of any kind. At least as many brackets are
open at once in it as the value has levels. -/

namespace Highlight.Json

open Result

variable {α β : Type}

lemma Moves.after {v c : Bytes} {i j n : ℕ} (hv : Runs .outside .outside v) (hc : Moves i j n c) :
    Moves i j n (v ++ c) :=
  ((Moves.of_runs hv i).append hc).mono (Nat.le_max_right _ _)

lemma Nests.of_runs {c : Bytes} (h : Runs .outside .outside c) : Nests 0 c := Moves.of_runs h 0

lemma Nests.of_opening {b : UInt8} (hb : b = openBracket ∨ b = openBrace) {n : ℕ} {c : Bytes}
    (hc : Moves 1 0 n c) : Nests n (b :: c) :=
  ((moves_opening hb 0).append hc).mono (Nat.le_max_right _ _)

lemma moves_closed {w : Bytes} (hw : Blank w) {b : UInt8} (hb : b = closeBracket ∨ b = closeBrace) :
    Moves 1 0 1 (w ++ [b]) := .after hw.runs (moves_closing hb 0)

/-! ### Separators -/

def Separates (v : Bytes) : Prop := ∀ b ∈ v, isSpace b = true ∨ b = comma ∨ b = colon

lemma Blank.separates {w : Bytes} (h : Blank w) : Separates w := fun b hb => .inl (h b hb)

lemma Blank.separates_comma {w w' : Bytes} (h : Blank w) (h' : Blank w') : Separates (w ++ comma :: w') := by
  refine List.forall_mem_append.mpr ⟨h.separates, List.forall_mem_cons.mpr ⟨.inr (.inl rfl), h'.separates⟩⟩

lemma Blank.separates_colon {w : Bytes} (h : Blank w) : Separates (w ++ [colon]) :=
  List.forall_mem_append.mpr ⟨h.separates, List.forall_mem_singleton.mpr (.inr (.inr rfl))⟩

lemma Separates.runs {v : Bytes} (h : Separates v) : Runs .outside .outside v := by
  refine runs_bare fun b hb => ?_
  rcases h b hb with hs | rfl | rfl
  · exact bare_of_isSpace hs
  · decide
  · decide

section Parts

variable {c : Punctuation} {first : Bool} {s : Bytes}

lemma exists_of_start {b : UInt8} {rest : Bytes} {h : rest.length < s.length} {n : Next s}
    (hn : c.start b rest h = .ok n) : ∃ t ht, n = .part t ht ∧ ∃ ht, c.part b rest = .ok ⟨t, ht⟩ := by
  rw [Punctuation.start] at hn
  split at hn
  · next t ht hp => exact ⟨t, _, (Except.ok.inj hn).symm, ht, hp⟩
  · cases hn

lemma blank_of_next_closed {rest : Bytes} {h : rest.length < s.length}
    (hn : c.next first s = .ok (.closed rest h)) : ∃ w, Blank w ∧ s = w ++ c.close :: rest := by
  rw [Punctuation.next] at hn
  split at hn
  · cases hn
  · next b t ht ha =>
    obtain ⟨w, hw, -, hs⟩ := exists_of_ahead? ha
    split at hn
    · next hb =>
      cases hn
      exact ⟨w, hw, hb ▸ hs⟩
    split at hn
    · obtain ⟨_, _, hpart, -⟩ := exists_of_start hn
      cases hpart
    split at hn
    · split at hn
      · cases hn
      split at hn
      · cases hn
      · obtain ⟨_, _, hpart, -⟩ := exists_of_start hn
        cases hpart
    · cases hn

lemma separator_of_next {t : Bytes} {h : t.length ≤ s.length} (hn : c.next first s = .ok (.part t h)) :
    ∃ v b u, Separates v ∧ s = v ++ b :: u ∧ (∃ ht, c.part b u = .ok ⟨t, ht⟩) ∧
      ∀ u' t', (∃ ht, c.part b u' = .ok ⟨t', ht⟩) → ∃ h', c.next first (v ++ b :: u') = .ok (.part t' h') := by
  rw [Punctuation.next] at hn
  split at hn
  · cases hn
  · next b u hu ha =>
    obtain ⟨w, hw, hsp, rfl⟩ := exists_of_ahead? ha
    split at hn
    · cases hn
    · next hb =>
      split at hn
      · next hf =>
        subst hf
        obtain ⟨_, _, ht, hp⟩ := exists_of_start hn
        cases ht
        exact ⟨w, b, u, hw.separates, rfl, hp, fun u' t' hp' => next_first hw hsp hb hp'⟩
      · next hf =>
        obtain rfl : first = false := by simpa using hf
        split at hn
        · next hc =>
          subst hc
          split at hn
          · cases hn
          · next d r hr ha' =>
            obtain ⟨w', hw', hsp', rfl⟩ := exists_of_ahead? ha'
            split at hn
            · cases hn
            · next hd =>
              obtain ⟨_, _, ht, hp⟩ := exists_of_start hn
              cases ht
              refine ⟨w ++ comma :: w', d, r, hw.separates_comma hw', by simp, hp, fun u' t' hp' => ?_⟩
              rw [List.append_assoc, List.cons_append]
              exact next_next hw hw' hsp' hd hp'
        · cases hn

end Parts

/-! ### Arrays -/

lemma separator_of_nextItem {i : ℕ} {s t : Bytes} {h : t.length ≤ s.length}
    (hn : nextItem i s = .ok (.part t h)) : ∃ v, Separates v ∧ s = v ++ t ∧
      ∀ t', SameNext t t' → ∃ h', nextItem i (v ++ t') = .ok (.part t' h') := by
  obtain ⟨v, b, u, hv, rfl, ⟨ht, hp⟩, hagain⟩ := separator_of_next hn
  obtain rfl : b :: u = t := congrArg Subtype.val (Except.ok.inj hp)
  refine ⟨v, hv, rfl, fun t' ht' => ?_⟩
  obtain ⟨u', rfl⟩ := exists_of_sameNext ht'
  exact hagain u' _ ⟨Nat.le_refl _, rfl⟩

lemma items_ends {item : Reader α} {P : α → Bytes → Prop} {W : List α → Bytes → Prop} (hitem : item.Takes P)
    (hclosed : ∀ w, Blank w → W [] (w ++ [closeBracket]))
    (hpart : ∀ v a c as d, Separates v → P a c → W as d → W (a :: as) (v ++ (c ++ d))) (i : ℕ) :
    Reader.Ends (items item i) W := by
  intro s
  induction hs : s.length using Nat.strong_induction_on generalizing s i with
  | _ m ih =>
    cases hn : nextItem i s with
    | error e =>
      refine .of_error (p := e.path) ?_
      rw [items, hn]
      rfl
    | ok next =>
      cases next with
      | closed rest h =>
        obtain ⟨w, hw, rfl⟩ := blank_of_next_closed hn
        rw [List.append_cons]
        refine .of_ok (a := []) (hclosed w hw) (fun rest => ?_) rest
        rw [List.append_assoc]
        exact items_closed hw item i rest
      | part t ht =>
        obtain ⟨v, hv, rfl, hagain⟩ := separator_of_nextItem hn
        refine .behind (P := fun as c => ∀ v, Separates v → W as (v ++ c))
          (r := fun t => ((item t).within (.index i)).andThen fun a u _ =>
            (items item (i + 1) u).map (a :: ·)) ?_ v (fun t' ht' => ?_) fun as c hc => hc v hv
        · refine ((hitem t).within (.index i)).andThen (Q := fun a as c => ∃ bs, as = a :: bs ∧ W bs c)
            (fun a u hu => ?_) ?_
          · have hlt : u.length < m := by
              rw [List.length_append] at hs
              omega
            exact (ih u.length hlt (i + 1) u rfl).map fun bs c hc => ⟨bs, rfl, hc⟩
          · rintro a c as d ha ⟨bs, rfl, hd⟩ v hv
            exact hpart v a c bs d hv ha hd
        · obtain ⟨_, hn'⟩ := hagain t' ht'
          rw [items, hn']
          simp only [outcome_widen]

lemma items_nest {item : Reader α} {d : α → ℕ} {N : ℕ} (hitem : item.Takes fun a c => d a ≤ N ∧ Nests (d a) c)
    (i : ℕ) : Reader.Ends (items item i) fun as c => ∃ n ≤ N, Moves 1 0 (n + 1) c ∧ ∀ a ∈ as, d a ≤ n := by
  refine items_ends hitem (fun w hw => ⟨0, Nat.zero_le N, moves_closed hw (.inl rfl), by simp⟩) ?_ i
  rintro v a c as e hv ⟨ha, hc⟩ ⟨n, hn, he, has⟩
  refine ⟨max (d a) n, Nat.max_le.mpr ⟨ha, hn⟩, .after hv.runs ((hc.deeper.append he).mono (by omega)), ?_⟩
  intro b hb
  rcases List.mem_cons.mp hb with rfl | hb
  · exact Nat.le_max_left _ _
  · exact Nat.le_trans (has b hb) (Nat.le_max_right _ _)

/-! ### Objects -/

lemma separator_of_nextKey {first : Bool} {s t : Bytes} {h : t.length ≤ s.length}
    (hn : nextKey first s = .ok (.part t h)) : ∃ v, Separates v ∧ s = v ++ quote :: t ∧
      ∀ t', ∃ h', nextKey first (v ++ quote :: t') = .ok (.part t' h') := by
  obtain ⟨v, b, u, hv, rfl, ⟨ht, hp⟩, hagain⟩ := separator_of_next hn
  by_cases hb : b = quote
  · subst hb
    obtain rfl : u = t := congrArg Subtype.val (Except.ok.inj hp)
    exact ⟨v, hv, rfl, fun t' => hagain t' t' ⟨Nat.le_succ _, rfl⟩⟩
  · simp [inObject, hb] at hp

lemma afterColon_ends : afterColon.Ends fun _ c => ∃ w, Blank w ∧ c = w ++ [colon] := by
  intro s
  cases ha : ahead? s with
  | none =>
    refine .of_error (p := []) ?_
    rw [afterColon, ha]
    rfl
  | some p =>
    obtain ⟨b, t, ht⟩ := p
    obtain ⟨w, hw, -, hs⟩ := exists_of_ahead? ha
    by_cases hb : b = colon
    · subst hb
      rw [hs, List.append_cons]
      refine .of_ok (a := ()) ⟨w, hw, rfl⟩ (fun rest => ?_) t
      rw [List.append_assoc]
      exact afterColon_blank hw rest
    · refine .of_error (p := []) ?_
      simp only [afterColon, ha, if_neg hb]
      rfl

lemma memberValue_takes {value : Reader α} {P : α → Bytes → Prop} (hv : value.Takes P)
    (hP : ∀ v a c, Separates v → P a c → P a (v ++ c)) (key : String) : (memberValue key value).Takes P := by
  intro s
  refine (afterColon_ends.takes s).andThen (Q := fun _ => P) (fun _ t _ => (hv t).within _) ?_
  rintro _ v a c ⟨w, hw, rfl⟩ hc
  exact hP _ a c hw.separates_colon hc

lemma members_ends {member : β → String → Reader β} {P : β → β → Bytes → Prop} {W : β → β → Bytes → Prop}
    (hmember : ∀ state key, (member state key).Takes (P state))
    (hclosed : ∀ state w, Blank w → W state state (w ++ [closeBrace]))
    (hpart : ∀ v key k state c state₁ d state', Separates v → SpellsText key k → P state state₁ c →
      W state₁ state' d → W state state' (v ++ (k ++ (c ++ d)))) (state : β) (first : Bool) :
    Reader.Ends (members member state first) (W state) := by
  intro s
  induction hs : s.length using Nat.strong_induction_on generalizing s state first with
  | _ m ih =>
    cases hn : nextKey first s with
    | error e =>
      refine .of_error (p := (e.within .unknown).path) ?_
      rw [members, hn]
      rfl
    | ok next =>
      cases next with
      | closed rest h =>
        obtain ⟨w, hw, rfl⟩ := blank_of_next_closed hn
        rw [List.append_cons]
        refine .of_ok (a := state) (hclosed state w hw) (fun rest => ?_) rest
        rw [List.append_assoc]
        exact members_closed hw member state first rest
      | part t ht =>
        obtain ⟨v, hv, rfl, hagain⟩ := separator_of_nextKey hn
        rw [List.append_cons]
        refine .behind (P := fun state' c => ∀ v, Separates v → W state state' (v ++ quote :: c))
          (r := fun t => ((literal t).within .unknown).andThen fun key u _ =>
            (member state key u).andThen fun state v _ => members member state false v)
          ?_ (v ++ [quote]) (fun t' _ => ?_) fun state' c hc => ?_
        · refine ((literal_ends.takes t).within .unknown).andThen
            (f := fun key u => (member state key u).andThen fun state v _ => members member state false v)
            (Q := fun key state' e => ∃ c d state₁, e = c ++ d ∧ P state state₁ c ∧ W state₁ state' d)
            (fun key u hu => ?_) ?_
          · refine (hmember state key u).andThen (Q := fun state₁ state' d => W state₁ state' d)
              (fun state₁ x hx => ?_) fun state₁ c state' d hc hd => ⟨c, d, state₁, rfl, hc, hd⟩
            have hlt : x.length < m := by
              rw [List.length_append, List.length_cons] at hs
              omega
            exact ih x.length hlt state₁ false x rfl
          · rintro key k state' e hk ⟨c, d, state₁, rfl, hc, hd⟩ v hv
            exact hpart v key (quote :: k) state c state₁ d state' hv hk hc hd
        · obtain ⟨_, hn'⟩ := hagain t'
          rw [List.append_assoc, List.singleton_append, members, hn']
          simp only [outcome_widen]
        · rw [List.append_assoc]
          exact hc v hv

lemma members_nest {member : β → String → Reader β} {d : β → ℕ} {N : ℕ} (hmember : ∀ state key,
    (member state key).Takes fun state' c => ∃ n ≤ N, Nests n c ∧ d state' ≤ max (d state) n)
    (state : β) (first : Bool) : Reader.Ends (members member state first)
      fun state' c => ∃ n ≤ N, Moves 1 0 (n + 1) c ∧ d state' ≤ max (d state) n := by
  refine members_ends hmember (W := fun state state' c =>
    ∃ n ≤ N, Moves 1 0 (n + 1) c ∧ d state' ≤ max (d state) n) (fun state w hw => ?_) ?_ state first
  · exact ⟨0, Nat.zero_le N, moves_closed hw (.inr rfl), Nat.le_max_left _ _⟩
  · rintro v key k state c state₁ e state' hv hk ⟨n, hn, hc, hd⟩ ⟨n', hn', he, hd'⟩
    refine ⟨max n n', by omega, ?_, by omega⟩
    exact .after hv.runs (.after hk.runs ((hc.deeper.append he).mono (by omega)))

/-! ### Values -/

def Deep (n : ℕ) (t : Tree) (c : Bytes) : Prop := t.depth ≤ n ∧ Nests t.depth c

lemma Deep.after {n : ℕ} {t : Tree} {v c : Bytes} (hv : Runs .outside .outside v) (hc : Deep n t c) :
    Deep n t (v ++ c) := ⟨hc.1, .after hv hc.2⟩

lemma Deep.of_opening {n k : ℕ} {t : Tree} {b : UInt8} {c : Bytes}
    (hb : b = openBracket ∨ b = openBrace) (ht : t.depth ≤ k + 1) (hk : k < n)
    (hc : Moves 1 0 (k + 1) c) : Deep n t (b :: c) :=
  ⟨by omega, (Nests.of_opening hb hc).mono ht⟩

lemma depth_scalar (x : Scalar) : x.tree.depth = 0 := by
  cases x with
  | number n => cases n <;> rfl
  | null | boolean | text => rfl

abbrev entry (value : Reader Tree) (ms : List (Tree × Tree)) (key : String) : Reader (List (Tree × Tree)) :=
  fun s => Result.map (fun v => (.text key, v) :: ms) (memberValue key value s)

lemma treeWith_takes {inner : Option (Reader Tree)} {P : Tree → Bytes → Prop}
    (hafter : ∀ w t c, Blank w → P t c → P t (w ++ c)) (hsingle : ∀ x c, Single c → P (Scalar.tree x) c)
    (harray : ∀ value ∈ inner, Reader.Ends (items value 0) fun ts c => P (.array ts) (openBracket :: c))
    (hrecord : ∀ value ∈ inner, Reader.Ends (members (entry value) [] true)
      fun ms c => P (.record ms.reverse) (openBrace :: c)) : (treeWith inner).Takes P := by
  intro s
  refine .afterSpace ?_ hafter
  cases skipSpace s with
  | nil => exact .of_error (p := []) rfl
  | cons b s =>
    by_cases ha : b = openBracket
    · subst ha
      cases inner with
      | none => exact .of_error (p := []) rfl
      | some value =>
        have hv : Reader.Ends (fun s => Result.map .array (items value 0 s))
            fun t c => P t (openBracket :: c) := fun s => (harray value rfl s).map fun _ _ hc => hc
        refine (hv.takes s).cons (fun t => ?_) fun _ _ hc => hc
        simp only [if_true, outcome_widen]
    by_cases ho : b = openBrace
    · subst ho
      cases inner with
      | none => exact .of_error (p := []) rfl
      | some value =>
        have hv : Reader.Ends (fun s => Result.map (fun ms => .record ms.reverse)
            (members (entry value) [] true s)) fun t c => P t (openBrace :: c) :=
          fun s => (hrecord value rfl s).map fun _ _ hc => hc
        refine (hv.takes s).cons (fun t => ?_) fun _ _ hc => hc
        simp only [if_neg ha, if_true, outcome_widen]
    · have hs : Reader.TakesFrom SameNext (fun s => Result.map Scalar.tree (scalar s)) P (b :: s) :=
        (scalar_takes (b :: s)).map hsingle
      refine hs.congr fun t => ?_
      simp only [if_neg ha, if_neg ho]

lemma deep_array {value : Reader Tree} {k : ℕ} (hv : value.Takes (Deep k)) :
    Reader.Ends (items value 0) fun ts c => Deep (k + 1) (.array ts) (openBracket :: c) := by
  intro s
  refine (items_nest hv 0 s).imp fun ts c hc => ?_
  obtain ⟨j, hj, hc, hts⟩ := hc
  refine Deep.of_opening (.inl rfl) ?_ (Nat.lt_succ_of_le hj) hc
  exact Nat.succ_le_succ (Tree.itemsDepth_le_iff.mpr hts)

lemma deep_record {value : Reader Tree} {k : ℕ} (hv : value.Takes (Deep k)) :
    Reader.Ends (members (entry value) [] true)
      fun ms c => Deep (k + 1) (.record ms.reverse) (openBrace :: c) := by
  have hm (ms : List (Tree × Tree)) (key : String) : (entry value ms key).Takes
      fun ms' c => ∃ n ≤ k, Nests n c ∧ Tree.membersDepth ms' ≤ max (Tree.membersDepth ms) n := by
    intro s
    refine (memberValue_takes hv (fun v t c hv hc => hc.after hv.runs) key s).map fun t c hc => ?_
    refine ⟨t.depth, hc.1, hc.2, ?_⟩
    rw [Tree.membersDepth]
    omega
  intro s
  refine (members_nest hm [] true s).imp fun ms c hc => ?_
  obtain ⟨j, hj, hc, hms⟩ := hc
  refine Deep.of_opening (.inr rfl) ?_ (Nat.lt_succ_of_le hj) hc
  have hnil : Tree.membersDepth [] = 0 := rfl
  have hle : Tree.membersDepth ms ≤ j := by omega
  refine Nat.succ_le_succ (Tree.membersDepth_le_iff.mpr fun m hm => ?_)
  exact Tree.membersDepth_le_iff.mp hle m (List.mem_reverse.mp hm)

lemma tree_takes (n : ℕ) : (tree n).Takes (Deep n) := by
  have hafter (n : ℕ) (w : Bytes) (t : Tree) (c : Bytes) (hw : Blank w) (hc : Deep n t c) : Deep n t (w ++ c) :=
    hc.after hw.runs
  have hsingle (n : ℕ) (x : Scalar) (c : Bytes) (hc : Single c) : Deep n x.tree c := by
    rw [Deep, depth_scalar]
    exact ⟨Nat.zero_le n, .of_runs hc.runs⟩
  induction n with
  | zero =>
    exact treeWith_takes (hafter 0) (hsingle 0) (fun value hv => absurd hv.symm (Option.some_ne_none value))
      fun value hv => absurd hv.symm (Option.some_ne_none value)
  | succ n ih =>
    refine treeWith_takes (hafter _) (hsingle _) (fun value hv => ?_) fun value hv => ?_
    · obtain rfl := Option.some.inj hv
      exact deep_array ih
    · obtain rfl := Option.some.inj hv
      exact deep_record ih

end Highlight.Json
