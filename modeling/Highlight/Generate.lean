import Highlight.Grammar.Saved
import Highlight.Grammar.Validation
import Highlight.Log.Filter
import Highlight.Noze

/-! A run that checks the grammar of Noze and writes it to its file. -/

namespace Highlight.Generate

inductive Refusal
  | invalid (reason : Grammar.Invalid)
  | unsaved (reason : Failure)

namespace Refusal

def message : Refusal → String
  | .invalid _ => "grammar failed validation"
  | .unsaved _ => "failed to emit grammar"

def causes : Refusal → List String
  | .invalid reason => [reason.message, reason.fault.message]
  | .unsaved reason => reason.message :: reason.causes

def causeLines : List String → List String
  | [] => []
  | causes =>
    ["", if causes.length = 1 then "Caused by this error:"
      else "Caused by these errors (recent errors listed first):"] ++
    causes.mapIdx fun i cause => s!"  {i + 1}: {cause}"

def report (r : Refusal) : List String := ["Error: " ++ r.message] ++ causeLines r.causes ++ [""]

end Refusal

structure Outcome where
  exitCode : Nat
  output : String
  errorLines : List String
  deriving DecidableEq

def outcome (setting : Option String) (log : List Log.Record) (result : Except Refusal Unit) : Outcome :=
  let (filter, warnings) := Log.Filter.read (setting.getD "info")
  let shown := warnings ++ (log.filter filter.shows).map (·.line)
  match result with
  | .ok () => ⟨0, "", shown⟩
  | .error refusal => ⟨1, "", shown ++ refusal.report⟩

section

variable {m : Type → Type} [Monad m]

def generateIn (d : Storage m) (g : Grammar) (o : Output) : m (Except Refusal Unit × List Log.Record) :=
  match g.validate with
  | (.error reason, log) => return (.error (.invalid reason), log)
  | (.ok (), log) => do
    match ← g.saveIn d o with
    | .error reason => return (.error (.unsaved reason), log)
    | .ok record => return (.ok (), log ++ [record])

def runIn (d : Storage m) (setting : Option String) (_arguments : List String) : m Outcome := do
  let (result, log) ← generateIn d Noze.grammar Noze.defaultOutput
  return outcome setting log result

end

def generate (g : Grammar) (o : Output) (t : FileTree) : FileTree × Except Refusal Unit × List Log.Record :=
  ((generateIn FileTree.storage g o).run t).swap

theorem generate_eq (g : Grammar) (o : Output) (t : FileTree) :
    generate g o t =
      match g.validate with
      | (.error reason, log) => (t, .error (.invalid reason), log)
      | (.ok (), log) =>
        match g.save o t with
        | (u, .error reason) => (u, .error (.unsaved reason), log)
        | (u, .ok record) => (u, .ok (), log ++ [record]) := by
  rw [generate, generateIn, Grammar.save]
  obtain ⟨_ | ⟨⟩, log⟩ := g.validate
  · rfl
  · dsimp only
    rw [StateT.run_bind]
    obtain ⟨_ | _, u⟩ := (g.saveIn FileTree.storage o).run t <;> rfl

def run (setting : Option String) (arguments : List String) (t : FileTree) : FileTree × Outcome :=
  ((runIn FileTree.storage setting arguments).run t).swap

theorem run_eq (setting : Option String) (arguments : List String) (t : FileTree) :
    run setting arguments t =
      let (u, result, log) := generate Noze.grammar Noze.defaultOutput t
      (u, outcome setting log result) := by
  rw [run, runIn, StateT.run_bind, generate]
  obtain ⟨⟨result, log⟩, u⟩ := (generateIn FileTree.storage Noze.grammar Noze.defaultOutput).run t
  rfl

end Highlight.Generate
