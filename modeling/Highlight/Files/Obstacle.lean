/-! Why a file or a directory cannot be had. -/

namespace Highlight.Files

inductive Obstacle
  | notFound
  | exists
  | notDirectory
  | isDirectory
  | nameTooLong
  | nulByte
  deriving DecidableEq, Repr

def Obstacle.number? : Obstacle → Option Nat
  | .notFound => some 2
  | .exists => some 17
  | .notDirectory => some 20
  | .isDirectory => some 21
  | .nameTooLong => some 36
  | .nulByte => none

def Obstacle.description : Obstacle → String
  | .notFound => "No such file or directory"
  | .exists => "File exists"
  | .notDirectory => "Not a directory"
  | .isDirectory => "Is a directory"
  | .nameTooLong => "File name too long"
  | .nulByte => "file name contained an unexpected NUL byte"

def Obstacle.message (o : Obstacle) : String :=
  match o.number? with
  | some n => o.description ++ s!" (os error {n})"
  | none => o.description

end Highlight.Files
