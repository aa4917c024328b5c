import Formula.CommandLine

/-! The program: a run of the command line under the default settings. -/

open Formula

/-- Records that ask for attention are shown beside the output. -/
def showRecord (record : Record) : IO Unit :=
  if record.level = .warning ∨ record.level = .error then
    IO.eprintln (record.level.name ++ " - " ++ record.text)
  else pure ()

/-- Runs the command line on the arguments of the program. -/
def main (arguments : List String) : IO UInt32 := do
  let run := CommandLine.run {} arguments
  run.records.forM showRecord
  match run.ending with
  | .ok ending =>
    IO.print ending.output
    return ending.exitCode.toUInt32
  | .error failure =>
    IO.eprintln failure.message
    return 1
