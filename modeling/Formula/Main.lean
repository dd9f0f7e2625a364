import Formula.CommandLine.Run

/-! The program: reads what the request names, prints, and exits. -/

open Formula CommandLine

/-- A text that is not UTF-8 cannot be read. -/
def readFile? (path : String) : IO (Option String) := do
  try
    return String.fromUTF8? (← IO.FS.readBinFile path)
  catch _ =>
    return none

def readStdin? : IO (Option String) := do
  return String.fromUTF8? (← (← IO.getStdin).readBinToEnd)

def report (ending : Ending) : IO Unit := do
  match ending with
  | .success => return
  | .misuse =>
    IO.eprintln "error: the arguments do not fit\n\nFor more information, try '--help'."
  | .failure failure =>
    IO.eprintln failure.code
    IO.eprintln ("\n  × " ++ failure.message)
    if let some hint := failure.help then
      IO.eprintln ("  help: " ++ hint)

def main (arguments : List String) : IO UInt32 := do
  let request := parse arguments
  let stdin ← if request.sources.contains "-" then readStdin? else pure none
  let files ← (request.sources.filter (· != "-")).mapM fun path => return (path, ← readFile? path)
  let result := run request ⟨stdin, fun path => (files.lookup path).join⟩
  IO.print result.stdout
  report result.ending
  return result.exit.toUInt32
