import Highlight.Proofs.Json.Printer

/-! How bytes open and close brackets. Every byte counts as a character of its own: no byte of a character
beyond U+007F is a bracket, a quotation mark or a backslash. -/

namespace Highlight.Json

def characters (b : Bytes) : List Char := b.map Char.ofUInt8

@[simp] lemma characters_append (c d : Bytes) : characters (c ++ d) = characters c ++ characters d :=
  List.map_append

lemma eq_of_ofUInt8 {b : UInt8} {c : Char} (h : Char.ofUInt8 b = c) : b = UInt8.ofNat c.toNat := by
  subst h
  exact UInt8.ofNat_toNat.symm

/-! ### Bytes that leave all brackets as they are -/

def Runs (p q : Place) (c : Bytes) : Prop :=
  ∀ k m, (characters c).foldl Nesting.next ⟨p, k, m⟩ = ⟨q, k, m⟩

lemma Runs.nil (p : Place) : Runs p p [] := fun _ _ => rfl

lemma Runs.append {p q r : Place} {c d : Bytes} (hc : Runs p q c) (hd : Runs q r d) :
    Runs p r (c ++ d) := by
  intro k m
  rw [characters_append, List.foldl_append, hc, hd]

lemma Runs.cons {p q r : Place} {b : UInt8} {c : Bytes} (hb : Runs p q [b]) (hc : Runs q r c) :
    Runs p r (b :: c) := hb.append hc

lemma Runs.of_forall {p : Place} {c : Bytes} (h : ∀ b ∈ c, Runs p p [b]) : Runs p p c := by
  induction c with
  | nil => exact .nil p
  | cons b c ih => exact .cons (h b (by simp)) (ih fun d hd => h d (by simp [hd]))

def Bare (b : UInt8) : Prop :=
  b ≠ openBracket ∧ b ≠ closeBracket ∧ b ≠ openBrace ∧ b ≠ closeBrace ∧ b ≠ quote

instance : DecidablePred Bare := fun b => inferInstanceAs (Decidable (b ≠ openBracket ∧ _))

lemma Bare.runs {b : UInt8} (h : Bare b) : Runs .outside .outside [b] := by
  have hne {c : Char} (hc : b ≠ UInt8.ofNat c.toNat) : Char.ofUInt8 b ≠ c := fun hb =>
    hc (eq_of_ofUInt8 hb)
  obtain ⟨h₁, h₂, h₃, h₄, h₅⟩ := h
  intro k m
  simp [characters, Nesting.next, hne (c := '[') h₁, hne (c := ']') h₂, hne (c := '\x7b') h₃,
    hne (c := '\x7d') h₄, hne (c := '"') h₅]

lemma runs_bare {c : Bytes} (h : ∀ b ∈ c, Bare b) : Runs .outside .outside c :=
  .of_forall fun b hb => (h b hb).runs

lemma bare_of_isSpace {b : UInt8} (h : isSpace b = true) : Bare b := by
  simp only [isSpace, Bool.or_eq_true, beq_iff_eq] at h
  rcases h with ((rfl | rfl) | rfl) | rfl <;> decide

lemma Blank.runs {w : Bytes} (h : Blank w) : Runs .outside .outside w :=
  runs_bare fun b hb => bare_of_isSpace (h b hb)

lemma runs_inside {b : UInt8} (hq : b ≠ quote) (hb : b ≠ backslash) : Runs .inside .inside [b] := by
  have hq' : Char.ofUInt8 b ≠ '"' := fun h => hq (eq_of_ofUInt8 h)
  have hb' : Char.ofUInt8 b ≠ '\\' := fun h => hb (eq_of_ofUInt8 h)
  intro k m
  simp [characters, Nesting.next, hq', hb']

lemma runs_escaped (b : UInt8) : Runs .escaped .inside [b] := fun _ _ => rfl

lemma runs_backslash : Runs .inside .escaped [backslash] := fun _ _ => rfl

lemma runs_opening : Runs .outside .inside [quote] := fun _ _ => rfl

lemma runs_closing : Runs .inside .outside [quote] := fun _ _ => rfl

/-! ### Bytes that open and close brackets -/

/-- Bytes inside `i` brackets after which `j` are open, and `n` at once somewhere between. -/
def Moves (i j n : ℕ) (c : Bytes) : Prop :=
  ∀ k m, k + i ≤ m → ∃ m', (characters c).foldl Nesting.next ⟨.outside, k + i, m⟩ =
    ⟨.outside, k + j, m'⟩ ∧ m ≤ m' ∧ k + j ≤ m' ∧ k + n ≤ m'

variable {i j l n n' : ℕ} {c d : Bytes}

lemma Moves.of_runs (h : Runs .outside .outside c) (i : ℕ) : Moves i i i c :=
  fun k m hm => ⟨m, h (k + i) m, Nat.le_refl m, hm, hm⟩

lemma Moves.mono (h : Moves i j n c) (hn : n' ≤ n) : Moves i j n' c := by
  intro k m hm
  obtain ⟨m', hf, h₁, h₂, h₃⟩ := h k m hm
  exact ⟨m', hf, h₁, h₂, by omega⟩

lemma Moves.append (hc : Moves i j n c) (hd : Moves j l n' d) : Moves i l (max n n') (c ++ d) := by
  intro k m hm
  obtain ⟨m₁, hf₁, h₁, h₂, h₃⟩ := hc k m hm
  obtain ⟨m₂, hf₂, h₄, h₅, h₆⟩ := hd k m₁ h₂
  refine ⟨m₂, ?_, by omega, h₅, by omega⟩
  rw [characters_append, List.foldl_append, hf₁, hf₂]

lemma Moves.deeper (h : Moves i j n c) : Moves (i + 1) (j + 1) (n + 1) c := by
  intro k m hm
  obtain ⟨m', hf, h₁, h₂, h₃⟩ := h (k + 1) m (by omega)
  refine ⟨m', ?_, h₁, by omega, by omega⟩
  have hi : k + (i + 1) = k + 1 + i := by omega
  have hj : k + (j + 1) = k + 1 + j := by omega
  rw [hi, hj, hf]

lemma moves_opening {b : UInt8} (hb : b = openBracket ∨ b = openBrace) (i : ℕ) :
    Moves i (i + 1) (i + 1) [b] := by
  intro k m hm
  refine ⟨max m (k + i + 1), ?_, by omega, by omega, by omega⟩
  rcases hb with rfl | rfl <;> rfl

lemma moves_closing {b : UInt8} (hb : b = closeBracket ∨ b = closeBrace) (i : ℕ) :
    Moves (i + 1) i (i + 1) [b] := by
  intro k m hm
  refine ⟨m, ?_, by omega, by omega, by omega⟩
  rcases hb with rfl | rfl <;> rfl

abbrev Nests (n : ℕ) (c : Bytes) : Prop := Moves 0 0 n c

lemma Nests.le_deepest (h : Nests n c) : n ≤ deepest (characters c) := by
  obtain ⟨m, hf, -, -, hn⟩ := h 0 0 (Nat.le_refl 0)
  rw [deepest]
  have hm : ((characters c).foldl Nesting.next {}).most = m := congrArg Nesting.most hf
  omega

end Highlight.Json
