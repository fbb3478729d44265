import TransitionNetwork.Analyser
import TransitionNetwork.Document.Format

/-!
Settings of the command line.

They start from their defaults. A YAML file replaces what it mentions, and variables of the
environment replace what the file has left. Settings under which no symbol could be tried and no
sentence settled are refused.
-/

namespace TransitionNetwork

/-- The values of variables; a variable that is not set has none. -/
abbrev Environment := String → Option String

structure Settings where
  mode : Mode := .single
  limits : AnalyserLimits := {}
  lookup : Lexicon.Lookup := {}
  deriving DecidableEq, Repr, Inhabited

/-- Why there are no settings. -/
inductive SettingsError
  | unreadable (path : String) (error : FileError)
  /-- The file holds no settings. -/
  | malformed (path : String)
  /-- A bound that has to be positive is zero. -/
  | zeroBound (name : String)
  deriving DecidableEq, Repr

def SettingsError.message : SettingsError → String
  | unreadable path error => "failed to read config file '" ++ path ++ "': " ++ error.message
  | malformed path => "failed to parse config file '" ++ path ++ "'"
  | zeroBound name => "configuration validation failed: " ++ name ++ " must be at least 1"

namespace Settings

/-! ### The settings file -/

/-- How the section `analysis` changes the settings. -/
def readAnalysis? (settings : Settings) (document : Document) : Option Settings :=
  match document.fields? ["mode", "max_restarts"] with
  | some [mode, maxRestarts] => do
    let mode ← Document.orDefault settings.mode (fun mode => mode.text? >>= Mode.ofName?) mode
    let maxRestarts ← Document.orDefault settings.limits.maxRestarts Document.natural? maxRestarts
    return { settings with mode, limits := { settings.limits with maxRestarts } }
  | _ => none

/-- How the section `automata` changes the settings. -/
def readAutomata? (settings : Settings) (document : Document) : Option Settings :=
  match document.fields? ["max_local_attempts", "max_call_depth", "max_settle_steps"] with
  | some [attempts, depth, steps] => do
    let bounds := settings.limits.session
    let maxLocalAttempts ← Document.orDefault bounds.maxLocalAttempts Document.natural? attempts
    let maxCallDepth ← Document.orDefault bounds.maxCallDepth Document.natural? depth
    let maxSettleSteps ← Document.orDefault bounds.maxSettleSteps Document.natural? steps
    let session := { maxLocalAttempts, maxCallDepth, maxSettleSteps }
    return { settings with limits := { settings.limits with session } }
  | _ => none

/-- How the section `lexicon` changes the settings. -/
def readLexicon? (settings : Settings) (document : Document) : Option Settings :=
  match document.fields? ["unknown_category", "case_sensitive"] with
  | some [unknownCategory, caseSensitive] => do
    let unknownCategory ← Document.orDefault settings.lookup.unknownCategory
      Document.optionalText? unknownCategory
    let caseSensitive ← Document.orDefault settings.lookup.caseSensitive Document.bool?
      caseSensitive
    return { settings with lookup := { unknownCategory, caseSensitive } }
  | _ => none

/-- The settings of a file; what is not written has its default. -/
def ofDocument? (document : Document) : Option Settings :=
  match document.fields? ["analysis", "automata", "lexicon"] with
  | some [analysis, automata, lexicon] => do
    let settings : Settings := {}
    let settings ← Document.orDefault settings settings.readAnalysis? analysis
    let settings ← Document.orDefault settings settings.readAutomata? automata
    Document.orDefault settings settings.readLexicon? lexicon
  | _ => none

/-- Settings in the form of their file. -/
def toJson (settings : Settings) : Json :=
  let natural (value : Nat) : Json := .number (toString value)
  let bounds := settings.limits.session
  .object [
    ("analysis", .object [
      ("mode", .string settings.mode.render),
      ("max_restarts", natural settings.limits.maxRestarts)]),
    ("automata", .object [
      ("max_local_attempts", natural bounds.maxLocalAttempts),
      ("max_call_depth", natural bounds.maxCallDepth),
      ("max_settle_steps", natural bounds.maxSettleSteps)]),
    ("lexicon", .object [
      ("unknown_category", (settings.lookup.unknownCategory.map .string).getD .null),
      ("case_sensitive", .bool settings.lookup.caseSensitive)])]

def read (files : FileReader) (path : String) : Except SettingsError Settings :=
  match files path with
  | .error error => .error (.unreadable path error)
  | .ok text =>
    match (Document.read? .yaml text).bind ofDocument? with
    | some settings => .ok settings
    | none => .error (.malformed path)

/-! ### The environment -/

/-- The variable that names the settings file. -/
def pathVariable : String := "POLISIN_CONFIG"

def modeVariable : String := "POLISIN_MODE"

def restartsVariable : String := "POLISIN_MAX_RESTARTS"

def attemptsVariable : String := "POLISIN_MAX_LOCAL_ATTEMPTS"

def depthVariable : String := "POLISIN_MAX_CALL_DEPTH"

def stepsVariable : String := "POLISIN_MAX_SETTLE_STEPS"

def categoryVariable : String := "POLISIN_UNKNOWN_CATEGORY"

/-- The variables that have a meaning. -/
def variableNames : List String :=
  [pathVariable, modeVariable, restartsVariable, attemptsVariable, depthVariable, stepsVariable,
    categoryVariable]

/-- A number from the environment in place of another; a value that is no number does not count. -/
def override (environment : Environment) (name : String) (value : Nat) : Nat :=
  ((environment name).bind Text.readDecimal?).getD value

/-- Replaces what the environment sets. A mode that does not exist does not count; an empty category
for unknown words takes the category away. -/
def withEnvironment (settings : Settings) (environment : Environment) : Settings :=
  let bounds := settings.limits.session
  { mode :=
      ((environment modeVariable).bind fun text => (Mode.parse text).toOption).getD settings.mode
    limits :=
      { maxRestarts := override environment restartsVariable settings.limits.maxRestarts
        session :=
          { maxLocalAttempts := override environment attemptsVariable bounds.maxLocalAttempts
            maxCallDepth := override environment depthVariable bounds.maxCallDepth
            maxSettleSteps := override environment stepsVariable bounds.maxSettleSteps } }
    lookup :=
      { settings.lookup with
        unknownCategory :=
          match environment categoryVariable with
          | none => settings.lookup.unknownCategory
          | some category => if category = "" then none else some category } }

def validate (settings : Settings) : Except SettingsError Settings :=
  if settings.limits.session.maxLocalAttempts = 0 then
    .error (.zeroBound "automata.max_local_attempts")
  else if settings.limits.session.maxSettleSteps = 0 then
    .error (.zeroBound "automata.max_settle_steps")
  else .ok settings

/-- The settings in force. The file is the given one or else the one that the environment names. -/
def load (files : FileReader) (environment : Environment) (path : Option String) :
    Except SettingsError Settings := do
  let settings ← match path <|> environment pathVariable with
    | some path => read files path
    | none => .ok {}
  (settings.withEnvironment environment).validate

end Settings

end TransitionNetwork
