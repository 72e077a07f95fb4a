import Highlight.Proofs.Grammar.Saved

/-! What a run leaves behind in its working directory. -/

namespace Highlight.Generate

open Files FileTree

variable {g : Grammar} {o : Output} {t : FileTree}

lemma exitCode_outcome (setting : Option String) (log : List Log.Record) (result : Except Refusal Unit) :
    (outcome setting log result).exitCode = if result.isOk then 0 else 1 := by
  cases result <;> rfl

lemma output_run (setting : Option String) (arguments : List String) (t : FileTree) :
    (run setting arguments t).2.output = "" := by
  rw [run_eq]
  generalize generate Noze.grammar Noze.defaultOutput t = r
  obtain ⟨u, result, log⟩ := r
  cases result <;> rfl

lemma noze_valid : Noze.grammar.validate.1.isOk = true := by
  decide +kernel

lemma generate_of_valid (h : g.validate.1.isOk = true) (o : Output) (t : FileTree) :
    (generate g o t).1 = (g.save o t).1 ∧ (generate g o t).2.1.isOk = (g.save o t).2.isOk := by
  rw [generate_eq]
  generalize g.validate = v at h
  obtain ⟨_ | _, log⟩ := v
  · simp [Except.isOk, Except.toBool] at h
  · simp only
    generalize g.save o t = r
    obtain ⟨u, _ | _⟩ := r <;> exact ⟨rfl, rfl⟩

lemma run_eq_save (setting : Option String) (arguments : List String) (t : FileTree) :
    (run setting arguments t).1 = (Noze.grammar.save Noze.defaultOutput t).1 ∧
      (run setting arguments t).2.exitCode =
        if (Noze.grammar.save Noze.defaultOutput t).2.isOk then 0 else 1 := by
  obtain ⟨htree, hresult⟩ := generate_of_valid noze_valid Noze.defaultOutput t
  rw [run_eq]
  generalize generate Noze.grammar Noze.defaultOutput t = r at htree hresult
  obtain ⟨u, result, log⟩ := r
  refine ⟨htree, ?_⟩
  rw [exitCode_outcome, ← hresult]

/-! ### Where the grammar of Noze goes -/

lemma defaultOutput_eq : Noze.defaultOutput = ⟨Path.ofNames (["syntaxes"] ++ ["noze.tmLanguage"]), .propertyList⟩ :=
  rfl

lemma names_plain : ∀ m ∈ ["syntaxes"] ++ ["noze.tmLanguage"], IsPlain m := by decide

lemma names_fit : Fits (["syntaxes"] ++ ["noze.tmLanguage"]) := by decide

lemma blocked_syntaxes_iff (hroot : t.node? [] = some .directory) :
    Blocked t [] ["syntaxes"] ↔ ∃ content, t.node? ["syntaxes"] = some (.file content) := by
  have h : Blocked t [] ([] ++ ["syntaxes"]) ↔ _ := blocked_append_iff
  simpa [not_blocked_nil hroot] using h

lemma save_noze (hroot : t.node? [] = some .directory) :
    Grammar.Saving t ["syntaxes"] "noze.tmLanguage" (Noze.grammar.toBytes .propertyList)
      (Noze.grammar.save Noze.defaultOutput t) :=
  Grammar.save_plain Noze.grammar .propertyList hroot names_plain names_fit

lemma save_noze_again (hroot : t.node? [] = some .directory) :
    (Noze.grammar.save Noze.defaultOutput (Noze.grammar.save Noze.defaultOutput t).1).1 =
      (Noze.grammar.save Noze.defaultOutput t).1 := by
  have hsaving := save_noze hroot
  generalize hr : Noze.grammar.save Noze.defaultOutput t = r at hsaving ⊢
  cases hsaving with
  | blocked hb => rw [hr]
  | occupied hd => rw [hr]
  | saved hb hd hu =>
    rw [defaultOutput_eq]
    exact Grammar.save_again names_plain names_fit ((hu _).trans (if_pos rfl))

/-- A run fails and changes nothing if a file stands for the directory of the grammar, or a directory for its
file. Otherwise the file holds the grammar, and nothing else is new but its directory. It makes no difference
which records are to be shown and which arguments are given, and a second run changes nothing. -/
theorem run_outcome (setting : Option String) (arguments : List String) (ms : List (String × FileTree)) :
    let t := FileTree.directory ms
    let u := (run setting arguments t).1
    let outcome := (run setting arguments t).2
    ((∃ content, t.node? ["syntaxes"] = some (.file content)) ∨
        t.node? ["syntaxes", "noze.tmLanguage"] = some .directory →
      outcome.exitCode = 1 ∧ u = t) ∧
    (¬ ((∃ content, t.node? ["syntaxes"] = some (.file content)) ∨
        t.node? ["syntaxes", "noze.tmLanguage"] = some .directory) →
      outcome.exitCode = 0 ∧ ∀ place, u.node? place =
        if place = ["syntaxes", "noze.tmLanguage"] then
          some (.file (Noze.grammar.toBytes .propertyList))
        else if place = ["syntaxes"] then some .directory
        else t.node? place) ∧
    outcome.output = "" ∧
    (∀ setting' arguments', (run setting' arguments' t).1 = u ∧
      (run setting' arguments' t).2.exitCode = outcome.exitCode) ∧
    ∀ setting' arguments', (run setting' arguments' u).1 = u := by
  dsimp only
  have hroot : (FileTree.directory ms).node? [] = some .directory := rfl
  generalize FileTree.directory ms = t at hroot
  have hsaving := save_noze hroot
  have hagain := save_noze_again hroot
  have hrun (setting : Option String) (arguments : List String) := run_eq_save setting arguments t
  have houtput := output_run setting arguments t
  obtain ⟨htree, hcode⟩ := hrun setting arguments
  generalize run setting arguments t = r at htree hcode houtput
  generalize Noze.grammar.save Noze.defaultOutput t = s at hsaving hagain hrun htree hcode
  rw [htree, hcode, ← blocked_syntaxes_iff hroot]
  refine ⟨fun h => ?_, fun h => ?_, houtput, hrun, fun setting' arguments' => ?_⟩
  · cases hsaving with
    | blocked hb => exact ⟨rfl, rfl⟩
    | occupied hd => exact ⟨rfl, rfl⟩
    | saved hb hd hu => exact absurd h (not_or.mpr ⟨hb, hd⟩)
  · cases hsaving with
    | blocked hb => exact absurd (.inl hb) h
    | occupied hd => exact absurd (.inr hd) h
    | saved hb hd hu =>
      refine ⟨rfl, fun place => ?_⟩
      rw [hu]
      by_cases hp : place = []
      · simp [hp, hroot]
      · simp [List.prefix_cons_iff, hp]
  · rw [(run_eq_save setting' arguments' s.1).1]
    exact hagain

theorem run_outcome_empty_and_blocked :
    ((run (some "off") ["--help"] (.directory [])).2.exitCode = 0 ∧
        (run (some "off") ["--help"] (.directory [])).1.node? ["syntaxes", "noze.tmLanguage"] =
          some (.file (Noze.grammar.toBytes .propertyList))) ∧
      (run none [] (.directory [("syntaxes", .file [])])).2.exitCode = 1 := by
  have hfree : ¬ ((∃ content, (FileTree.directory []).node? ["syntaxes"] = some (.file content)) ∨
      (FileTree.directory []).node? ["syntaxes", "noze.tmLanguage"] = some .directory) := by
    simp [node?, at?]
  have hfresh := (run_outcome (some "off") ["--help"] []).2.1 hfree
  have hblocked := (run_outcome none [] [("syntaxes", .file [])]).1 (.inl ⟨[], rfl⟩)
  exact ⟨⟨hfresh.1, (hfresh.2 _).trans (if_pos rfl)⟩, hblocked.1⟩

end Highlight.Generate
