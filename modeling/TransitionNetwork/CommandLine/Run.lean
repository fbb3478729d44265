import TransitionNetwork.CommandLine.Command
import TransitionNetwork.CommandLine.Dialogue

/-!
Running a command line: from arguments, files and environment to what is shown and the exit code.
-/

namespace TransitionNetwork

/-- What a program leaves behind. -/
structure Report where
  exit : Nat := 0
  output : String := ""
  errors : String := ""
  deriving DecidableEq, Repr, Inhabited

/-- The exit code for a command that fails. -/
def Report.failed : Nat := 1

/-- The exit code for arguments and settings that cannot be used. -/
def Report.unusable : Nat := 2

def Report.ofError (exit : Nat) (message : String) : Report :=
  { exit, errors := "Error: " ++ message ++ "\n" }

/-- How a command goes on. -/
inductive Outcome
  /-- The command is done. -/
  | finished (report : Report)
  /-- Lines are answered from now on. -/
  | dialogue (dialogue : Dialogue)

/-- The name and version of the program. -/
def versionText : String := "polisin 0.1.0\n"

def Refusal.report : Refusal → Report
  | help => {}
  | version => { output := versionText }
  | usage => { exit := Report.unusable }

namespace Command

/-- The answer of a command that is not a dialogue; a dialogue opens. -/
def execute (files : FileReader) (settings : Settings) :
    Command → Except CommandError (String ⊕ Dialogue)
  | parse grammar lexicon mode json words => do
    let workbench ← Workbench.load files settings grammar lexicon mode
    let verdict ← workbench.parse (String.intercalate " " words)
    return .inl (verdict.render json)
  | check grammar => do
    let compiled ← (Grammar.loadNetwork files grammar).mapError .grammar
    return .inl ("OK " ++ grammar ++ " (" ++ compiled.describe ++ ")")
  | dump grammar machine => do
    let compiled ← (Grammar.loadNetwork files grammar).mapError .grammar
    let text ← compiled.dump machine
    return .inl text
  | repl grammar lexicon mode => do
    let workbench ← Workbench.load files settings grammar lexicon mode
    return .inr { workbench }

end Command

/-- Runs a command under its settings. -/
def Invocation.run (files : FileReader) (environment : Environment) (invocation : Invocation) :
    Outcome :=
  match Settings.load files environment invocation.settingsPath with
  | .error error => .finished (.ofError Report.unusable error.message)
  | .ok settings =>
    match invocation.command.execute files settings with
    | .error error => .finished (.ofError Report.failed error.message)
    | .ok (.inl text) => .finished { output := text ++ "\n" }
    | .ok (.inr dialogue) => .dialogue dialogue

/-- What a command line leaves behind when all its input is known. -/
def runCommandLine (files : FileReader) (environment : Environment) (input : String)
    (arguments : List String) : Report :=
  match Invocation.read environment arguments with
  | .error refusal => refusal.report
  | .ok invocation =>
    match invocation.run files environment with
    | .finished report => report
    | .dialogue dialogue => { output := dialogue.transcript input }

end TransitionNetwork
