import ApiTypes.CommandLine

/-! The program: files and streams around the command line. -/

namespace ApiTypes.CommandLine

/-- Looks at a path. -/
def lookAt (path : String) : IO FileContent := do
  try
    return .text (← IO.FS.readFile path)
  catch error =>
    match error with
    | .noFileOrDirectory .. => return .absent
    | other => return .unreadable (toString other)

/-- Writes a file, and gives the outcome of a plan. -/
def carryOut (plan : Plan) : IO Outcome := do
  match plan.writing with
  | none => return plan.done
  | some writing =>
    try
      IO.FS.writeFile writing.path writing.content
      return plan.done
    catch error => return plan.stopped writing (toString error)

/-- Does what is asked for. -/
def perform (request : Request) : IO Outcome := do
  match request with
  | .run config command =>
    let found ← (command.paths config).mapM fun path => do return (path, ← lookAt path)
    carryOut (command.plan (fun path => (found.lookup path).getD .absent) config)
  | other => return answer other

/-- Prints an outcome, and gives its status. -/
def present (outcome : Outcome) : IO UInt32 := do
  for note in outcome.notes do
    IO.eprintln note
  match outcome.ending with
  | .success => pure ()
  | .failure error => IO.eprintln ("Error: " ++ error.message)
  | .misuse => IO.eprintln helpText
  IO.print outcome.output
  return UInt32.ofNat outcome.ending.code

end ApiTypes.CommandLine

/-- Runs the program with its arguments. -/
def main (arguments : List String) : IO UInt32 := do
  match ApiTypes.CommandLine.Request.read? arguments with
  | none => ApiTypes.CommandLine.present { ending := .misuse }
  | some request => ApiTypes.CommandLine.present (← ApiTypes.CommandLine.perform request)
