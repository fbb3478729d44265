import TransitionNetwork.CommandLine.Run

/-!
The program: reads the files and variables that a command line asks for, runs it and prints.
-/

namespace TransitionNetwork

def readEnvironment : IO Environment := do
  let values ← Settings.variableNames.filterMapM fun name => do
    return (← IO.getEnv name).map (name, ·)
  return fun name => values.lookup name

/-- The cause of a failed access. An error code may come with either sign. -/
def FileError.ofSystem : IO.Error → FileError
  | .noFileOrDirectory .. => .notFound
  | .inappropriateType _ code reason =>
    if code = 21 || code = -21 then .isDirectory
    else if code = 20 || code = -20 then .notDirectory
    else .system reason
  | error => .system (toString error)

def readText (path : String) : IO (Except FileError String) := do
  match ← (IO.FS.readBinFile path).toBaseIO with
  | .error error => return .error (.ofSystem error)
  | .ok bytes =>
    match String.fromUTF8? bytes with
    | some text => return .ok text
    | none => return .error .notText

/-- Reads some files at once. -/
def readFiles (paths : List String) : IO FileReader := do
  let contents ← paths.mapM fun path => return (path, ← readText path)
  return fun path => (contents.lookup path).getD (.error .notFound)

def Report.print (report : Report) : IO UInt32 := do
  IO.print report.output
  IO.eprint report.errors
  return report.exit.toUInt32

/-- Answers lines up to the end of the input. -/
partial def Dialogue.hold (dialogue : Dialogue) (input : IO.FS.Stream) : IO Unit := do
  let line ← input.getLine
  if line = "" then IO.print Dialogue.farewell
  else
    let (shown, next) := dialogue.take line
    IO.print shown
    match next with
    | some dialogue => dialogue.hold input
    | none => return ()

end TransitionNetwork

open TransitionNetwork in
def main (arguments : List String) : IO UInt32 := do
  let environment ← readEnvironment
  match Invocation.read environment arguments with
  | .error refusal => refusal.report.print
  | .ok invocation =>
    let files ← readFiles invocation.paths
    match invocation.run files environment with
    | .finished report => report.print
    | .dialogue dialogue =>
      IO.print dialogue.greeting
      dialogue.hold (← IO.getStdin)
      return 0
