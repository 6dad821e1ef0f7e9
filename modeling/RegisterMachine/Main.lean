import RegisterMachine.Greeting

/-!
# The command line

Prints the greeting's transcript.
-/

/-- Runs the demonstration. -/
def main : IO UInt32 := do
  match RegisterMachine.Greeting.transcript with
  | .ok text =>
    IO.print text
    return 0
  | .error fault =>
    IO.eprintln ("Error: " ++ fault.message)
    return 1
