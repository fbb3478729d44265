import TransitionNetwork.Grammar.Definition
import TransitionNetwork.Grammar.Compile
import TransitionNetwork.Document.Format

/-!
Grammars in files. A file whose extension names a format holds a definition, any other file holds the
line notation.
-/

namespace TransitionNetwork

/-- Why a source holds no grammar. -/
inductive GrammarError
  | unreadable (path : String) (error : FileError)
  /-- The text is not a definition in the given format. -/
  | malformed (format : Format)
  | line (error : Grammar.TextError)
  | definition (error : DefinitionError)
  | compile (error : CompileError)
  deriving DecidableEq, Repr

namespace GrammarError

def code : GrammarError → String
  | unreadable .. => "IO_ERROR"
  | malformed _ => "BAD_DEFINITION"
  | line error => error.code
  | definition error => error.code
  | compile error => error.code

def message : GrammarError → String
  | unreadable path error => "I/O error reading " ++ path ++ ": " ++ error.message
  | malformed .json => "JSON error: not a grammar definition"
  | malformed .yaml => "YAML error: not a grammar definition"
  | line error => error.message
  | definition error => error.message
  | compile error => error.message

end GrammarError

/-- Whether the remarks of a definition, which are an object within its own, are nested no deeper than
the format allows. -/
def Definition.fits (definition : Definition) (format : Format) : Bool :=
  (Json.object definition.remarks).depth + 1 ≤ format.maxDepth

/-- The definition that a text in a format holds. -/
def Definition.read (format : Format) (text : String) : Except GrammarError Definition :=
  match (Document.read? format text).bind Definition.ofDocument? with
  | some definition => if definition.fits format then .ok definition else .error (.malformed format)
  | none => .error (.malformed format)

namespace Grammar

def ofDefinition (definition : Definition) : Except GrammarError Grammar :=
  definition.toGrammar.mapError .definition

/-- The grammar of a text, which is a definition if a format is given. -/
def read (format : Option Format) (text : String) : Except GrammarError Grammar :=
  match format with
  | some format => Definition.read format text >>= ofDefinition
  | none => (ofText text).mapError .line

/-- The grammar of a file. -/
def load (files : FileReader) (path : String) : Except GrammarError Grammar :=
  match files path with
  | .error error => .error (.unreadable path error)
  | .ok text => read (Format.ofPath? path) text

/-- The network of the grammar of a file. -/
def loadNetwork (files : FileReader) (path : String) : Except GrammarError GrammarNetwork := do
  let grammar ← load files path
  grammar.compile.mapError .compile

end Grammar

end TransitionNetwork
