import TransitionNetwork.Settings
import TransitionNetwork.Grammar.File
import TransitionNetwork.Token.LexiconFile
import TransitionNetwork.Automaton.Render

/-!
Workbenches: a compiled grammar with everything that is needed to analyse sentences by it.
-/

namespace TransitionNetwork

/-- Why a command or a line of a dialogue has no answer. -/
inductive CommandError
  | grammar (error : GrammarError)
  | lexicon (error : LexiconError)
  | analysis (error : AnalysisError)
  | network (error : NetworkError)
  | mode (error : Mode.Unknown)
  deriving DecidableEq, Repr

def CommandError.message : CommandError → String
  | grammar error => error.message
  | lexicon error => error.message
  | analysis error => error.message
  | network error => error.message
  | mode error => error.message

namespace GrammarNetwork

/-- A grammar in numbers. -/
def describe (compiled : GrammarNetwork) : String :=
  let start := compiled.start
  let machines := compiled.network.machines.length
  let states := compiled.network.stateCount
  let rules := compiled.grammar.rules.length
  let checksum := compiled.checksum
  s!"start: {start}, machines: {machines}, states: {states}, rules: {rules}, checksum: {checksum}"

/-- The machines as text, or only the named one. -/
def dump (compiled : GrammarNetwork) : Option String → Except CommandError String
  | some name =>
    match compiled.network.machine? name with
    | some machine => .ok machine.render
    | none => .error (.network (.unknownMachine name))
  | none => .ok (String.intercalate "\n" (compiled.network.machines.map Automaton.render))

end GrammarNetwork

/-- What came of a sentence. -/
structure Verdict where
  accepted : Bool
  mode : Mode
  tree : Tree
  deriving Repr

namespace Verdict

def toJson (verdict : Verdict) : Json :=
  .object [("accepted", .bool verdict.accepted), ("mode", .string verdict.mode.render),
    ("tree", verdict.tree.toJson)]

/-- A verdict as JSON, or as one line with the tree in bracketed notation. -/
def render (verdict : Verdict) (json : Bool) : String :=
  if json then verdict.toJson.pretty
  else (if verdict.accepted then "ACCEPTED " else "REJECTED ") ++ verdict.tree.polish

end Verdict

structure Workbench where
  grammar : GrammarNetwork
  source : WordSource
  mode : Mode
  limits : AnalyserLimits

namespace Workbench

/-- Where words get their readings: from the lexicon of a file if there is one, else from the
sentence itself. -/
def loadSource (files : FileReader) (settings : Settings) :
    Option String → Except LexiconError WordSource
  | some path => (Lexicon.load files path).map fun entries => .lexicon entries settings.lookup
  | none => .ok .script

/-- Sets a workbench up from files. A given mode goes before the one of the settings. -/
def load (files : FileReader) (settings : Settings) (grammar : String) (lexicon : Option String)
    (mode : Option Mode) : Except CommandError Workbench := do
  let grammar ← (Grammar.loadNetwork files grammar).mapError .grammar
  let source ← (loadSource files settings lexicon).mapError .lexicon
  return { grammar, source, mode := mode.getD settings.mode, limits := settings.limits }

/-- Analyses one sentence. -/
def parse (workbench : Workbench) (sentence : String) : Except CommandError Verdict :=
  let analyser := Analyser.start workbench.grammar.network workbench.limits
  match analyser.analyseText workbench.mode workbench.source sentence with
  | (.ok accepted, analyser) => .ok { accepted, mode := workbench.mode, tree := analyser.tree }
  | (.error error, _) => .error (.analysis error)

end Workbench

end TransitionNetwork
