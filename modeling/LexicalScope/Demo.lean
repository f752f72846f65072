import LexicalScope.Log.Line
import LexicalScope.Session.Basic

set_option autoImplicit false

/-!
# A demonstration

A loop body as a child scope: the loop variable is copied in, updated three times, and written
back when the body ends, while a variable of the body is forgotten. The log of the run is
shown through a filter between the lines that the run prints.

## Main definitions

* `LexicalScope.Demo.loopSteps` — the loop.
* `LexicalScope.Demo.run` — what the demonstration prints, reports and exits with.
-/

namespace LexicalScope.Demo

/-- What a run of the demonstration leaves behind. -/
structure Output where
  /-- The printed lines and the shown log lines, in order. -/
  lines : List String
  /-- The report of the refusal at the end. -/
  report : String
  /-- The exit code. -/
  exitCode : Nat
deriving DecidableEq, Inhabited

/-- Two variables are declared, and a child in which they are seeded counts one of them up and
declares a third; then the values are written back and the child is closed. -/
def loopSteps : List Step :=
  [.edit 0 (.insert "count" "i64" "0"),
    .edit 0 (.insert "limit" "i64" "3"),
    .openChild 0,
    .seed 0,
    .edit 0 (.assign "count" "1"),
    .edit 0 (.assign "count" "2"),
    .edit 0 (.assign "count" "3"),
    .edit 0 (.insert "tmp" "i64" "9"),
    .writeBack 0,
    .closeChild 0]

/-- The question for the lines to be printed. -/
def printSteps : List Step :=
  [.query 0 .assignments]

/-- The attempt to remove the variable that went away with the child. -/
def lastSteps : List Step :=
  [.edit 0 (.erase "tmp")]

/-- What an outcome puts on the screen: its log lines as far as they are shown, then the lines
that it answers. -/
def screen (f : Log.Filter) (o : Outcome) : List String :=
  let printed :=
    match o.reply with
    | .lines ls => ls
    | _ => []
  o.log.filterMap (Log.lineOf? f) ++ printed

/-- The report of an outcome that is a refusal. -/
def complaint (o : Outcome) : String :=
  match o.reply with
  | .refused e => e.report
  | _ => ""

/-- Runs the demonstration with a log filter given as text. The refusal at the end is reported
and is not an error of the run. -/
def run (filter : Option String) : Output :=
  let f := Log.Filter.parse (filter.getD "")
  let outcomes := (Session.ofContexts [.traced]).run (loopSteps ++ printSteps ++ lastSteps)
  { lines := outcomes.flatMap (screen f)
    report := String.join (outcomes.map complaint)
    exitCode := 0 }

end LexicalScope.Demo
