import TransitionNetwork.CommandLine.Arguments
import TransitionNetwork.Settings

/-!
The commands and the arguments that ask for them.

The option for the settings file may stand before the command and behind it. An option may be given
once on each side, no path may be empty, and arguments are judged from left to right: what comes first,
a mistake or a request for help, decides.
-/

namespace TransitionNetwork

inductive Command
  /-- Analyses one sentence. -/
  | parse (grammar : String) (lexicon : Option String) (mode : Option Mode) (json : Bool)
    (words : List String)
  /-- Compiles a grammar and sums it up. -/
  | check (grammar : String)
  /-- Shows the machines of a grammar, or one of them. -/
  | dump (grammar : String) (machine : Option String)
  /-- Answers lines one by one. -/
  | repl (grammar : String) (lexicon : Option String) (mode : Option Mode)
  deriving DecidableEq, Repr

/-- What arguments ask for instead of a command. -/
inductive Refusal
  | help
  | version
  /-- The arguments do not fit together. -/
  | usage
  deriving DecidableEq, Repr

/-! ### Arguments by their role -/

inductive CommandKind
  | parse
  | check
  | dump
  | repl
  deriving DecidableEq, Repr, Inhabited

def configForm : OptionForm := { name := "config", letter := some 'c' }

def helpForm : OptionForm := { name := "help", letter := some 'h', takesValue := false }

def versionForm : OptionForm := { name := "version", letter := some 'V', takesValue := false }

def grammarForm : OptionForm := { name := "grammar", letter := some 'g' }

def lexiconForm : OptionForm := { name := "lexicon", letter := some 'l' }

def modeForm : OptionForm := { name := "mode", letter := some 'm' }

def machineForm : OptionForm := { name := "machine", letter := some 'm' }

def jsonForm : OptionForm := { name := "json", takesValue := false }

/-- The options that may stand before the command. -/
def outerForms : List OptionForm := [configForm, helpForm, versionForm]

namespace CommandKind

def ofName? (name : String) : Option CommandKind :=
  if name = "parse" then some .parse
  else if name = "check" then some .check
  else if name = "dump" then some .dump
  else if name = "repl" then some .repl
  else none

/-- The options that may stand behind the command. -/
def forms : CommandKind → List OptionForm
  | parse => [configForm, helpForm, grammarForm, lexiconForm, modeForm, jsonForm]
  | check => [configForm, helpForm]
  | dump => [configForm, helpForm, machineForm]
  | repl => [configForm, helpForm, grammarForm, lexiconForm, modeForm]

/-- Whether a word may follow the words before it: a sentence has any number of them, a command on one
grammar file has its path. -/
def takesWord (kind : CommandKind) (before : List String) (word : String) : Bool :=
  match kind with
  | parse => true
  | check => before.isEmpty && word ≠ ""
  | dump => before.isEmpty && word ≠ ""
  | repl => false

end CommandKind

/-- The arguments that have been read. -/
structure Given where
  settings : List (String × String) := []
  switches : List String := []
  words : List String := []
  deriving DecidableEq, Repr, Inhabited

namespace Given

def setting? (given : Given) (form : OptionForm) : Option String :=
  given.settings.lookup form.name

def has (given : Given) (form : OptionForm) : Bool := given.switches.contains form.name

def mode? (given : Given) : Option Mode :=
  (given.setting? modeForm).bind fun text => (Mode.parse text).toOption

/-- Whether an option may have a value: a mode has to exist and a path may not be empty. -/
def isValueFor (name value : String) : Bool :=
  if name = modeForm.name then (Mode.parse value).toOption.isSome
  else if name = machineForm.name then true
  else value ≠ ""

/-- Adds an argument, if it may follow the ones before it. -/
def add (takesWord : List String → String → Bool) (given : Given) :
    Argument → Except Refusal Given
  | .setting name value =>
    if (given.settings.lookup name).isSome || !isValueFor name value then .error .usage
    else .ok { given with settings := given.settings ++ [(name, value)] }
  | .switch name =>
    if name = helpForm.name then .error .help
    else if name = versionForm.name then .error .version
    else if given.switches.contains name then .error .usage
    else .ok { given with switches := given.switches ++ [name] }
  | .word text =>
    if takesWord given.words text then .ok { given with words := given.words ++ [text] }
    else .error .usage
  | .separator => .error .usage
  | .invalid => .error .usage

def ofArguments (takesWord : List String → String → Bool) (arguments : List Argument) :
    Except Refusal Given :=
  arguments.foldlM (add takesWord) {}

end Given

/-- The command that the arguments behind its name make, if none is missing. -/
def CommandKind.command? (kind : CommandKind) (given : Given) : Option Command :=
  match kind with
  | .parse => do
    let grammar ← given.setting? grammarForm
    if given.words = [] then none
    else
      some (.parse grammar (given.setting? lexiconForm) given.mode? (given.has jsonForm) given.words)
  | .check => given.words.head?.map .check
  | .dump => given.words.head?.map fun grammar => .dump grammar (given.setting? machineForm)
  | .repl => do
    let grammar ← given.setting? grammarForm
    return .repl grammar (given.setting? lexiconForm) given.mode?

/-! ### Whole command lines -/

/-- A command with the settings file it is to use. -/
structure Invocation where
  settingsPath : Option String
  command : Command
  deriving DecidableEq, Repr

namespace Invocation

/-- The name of the command that explains the others. -/
def helpName : String := "help"

/-- What asking for help about topics leads to: a command may be named, or help itself. -/
def helpOn (topics : List String) : Refusal :=
  match topics with
  | [] => .help
  | [topic] =>
    if topic = helpName || (CommandKind.ofName? topic).isSome then .help else .usage
  | _ => .usage

/-- The settings file: the one behind the command, the one before it or the one of the environment.
An empty path in the environment is a mistake unless both places name a file. -/
def chooseSettings (outer inner environment : Option String) : Except Refusal (Option String) :=
  if environment = some "" && !(outer.isSome && inner.isSome) then .error .usage
  else .ok (inner <|> outer <|> environment)

/-- Reads a command line. -/
def read (environment : Environment) (arguments : List String) : Except Refusal Invocation := do
  let (before, found) := Argument.readToWord outerForms arguments
  let outer ← Given.ofArguments (fun _ _ => false) before
  match found with
  | none => .error .usage
  | some (name, rest) =>
    if name = helpName then .error (helpOn rest)
    else
      match CommandKind.ofName? name with
      | none => .error .usage
      | some kind =>
        let inner ← Given.ofArguments kind.takesWord (Argument.readAll kind.forms rest)
        match kind.command? inner with
        | none => .error .usage
        | some command =>
          let settingsPath ← chooseSettings (outer.setting? configForm) (inner.setting? configForm)
            (environment Settings.pathVariable)
          return { settingsPath, command }

/-- The files that a command may read. -/
def paths (invocation : Invocation) : List String :=
  let files := match invocation.command with
    | .parse grammar lexicon .. => grammar :: lexicon.toList
    | .check grammar => [grammar]
    | .dump grammar _ => [grammar]
    | .repl grammar lexicon _ => grammar :: lexicon.toList
  invocation.settingsPath.toList ++ files

end Invocation

end TransitionNetwork
