import OutlineQuery.CommandLine

/-!
The program: runs its arguments and prints what comes of them.
-/

def main (arguments : List String) : IO UInt32 := do
  let outcome := OutlineQuery.CommandLine.run arguments
  (← IO.getStdout).putStr outcome.stdout
  (← IO.getStderr).putStr outcome.stderr
  return outcome.exit
