import Highlight.Generate

/-! The command: puts the grammar of Noze into its file in the working directory. -/

namespace Highlight.Command

open Files

def obstacle : IO.Error → Obstacle
  | .alreadyExists .. => .exists
  | .inappropriateType .. => .isDirectory
  | .illegalOperation .. => .notDirectory
  | _ => .notFound

def attempt (action : IO Unit) : IO (Except Obstacle Unit) := do
  try
    action
    return .ok ()
  catch e => return .error (obstacle e)

def disk : Storage IO where
  makeDirectories around := attempt (around.head?.forM fun path => IO.FS.createDirAll path)
  store path content := attempt (IO.FS.writeBinFile path ⟨content.toArray⟩)

end Highlight.Command

open Highlight

def main (arguments : List String) : IO UInt32 := do
  let setting ← IO.getEnv "RUST_LOG"
  let outcome ← Generate.runIn Command.disk setting arguments
  IO.print outcome.output
  outcome.errorLines.forM IO.eprintln
  return UInt32.ofNat outcome.exitCode
