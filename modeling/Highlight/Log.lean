/-! What a program reports while it runs. A record is shown on a line of its own; the time at which it was
made, which stands in front of the level where a clock is read, is left out of that line. -/

namespace Highlight.Log

inductive Level
  | error
  | warn
  | info
  | debug
  | trace
  deriving DecidableEq, Repr

def Level.rank : Level → Nat
  | .error => 1
  | .warn => 2
  | .info => 3
  | .debug => 4
  | .trace => 5

def Level.name : Level → String
  | .error => "ERROR"
  | .warn => "WARN"
  | .info => "INFO"
  | .debug => "DEBUG"
  | .trace => "TRACE"

structure Record where
  level : Level
  origin : String
  message : String
  deriving DecidableEq

def validation : String := "noze_grammar::grammar::validate"

def output : String := "noze_grammar::emit"

def Record.line (r : Record) : String :=
  "[" ++ r.level.name ++ String.ofList (List.replicate (5 - r.level.name.length) ' ') ++ " " ++
    r.origin ++ "] " ++ r.message

end Highlight.Log
