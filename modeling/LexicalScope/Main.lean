import LexicalScope.Demo

set_option autoImplicit false

/-!
# The command line

Runs the demonstration under the log filter that the environment holds. Log lines carry no
time, so the output depends on the filter alone.
-/

/-- Prints the demonstration's lines and its report. -/
def main : IO UInt32 := do
  let output := LexicalScope.Demo.run (← IO.getEnv "RUST_LOG")
  for line in output.lines do
    IO.println line
  IO.eprint output.report
  return output.exitCode.toUInt32
