import TransitionNetwork.Token.Lexicon
import TransitionNetwork.Document.Format

/-!
Lexicons in files: JSON if the extension says so, else YAML.
-/

namespace TransitionNetwork

/-- Why a source holds no lexicon. -/
inductive LexiconError
  | unreadable (path : String) (error : FileError)
  /-- The text is not a lexicon in the given format. -/
  | malformed (format : Format)
  deriving DecidableEq, Repr

namespace LexiconError

def code : LexiconError → String
  | unreadable .. => "IO_ERROR"
  | malformed _ => "BAD_LEXICON"

def message : LexiconError → String
  | unreadable path error => "I/O error reading " ++ path ++ ": " ++ error.message
  | malformed .json => "JSON error: not a lexicon"
  | malformed .yaml => "YAML error: not a lexicon"

end LexiconError

namespace Lexicon

/-- The lexicon that a text in a format holds. -/
def read (format : Format) (text : String) : Except LexiconError Lexicon :=
  match (Document.read? format text).bind ofDocument? with
  | some lexicon => .ok lexicon
  | none => .error (.malformed format)

/-- The lexicon of a file. -/
def load (files : FileReader) (path : String) : Except LexiconError Lexicon :=
  match files path with
  | .error error => .error (.unreadable path error)
  | .ok text =>
    read (if Format.ofPath? path = some .json then .json else .yaml) text

end Lexicon

end TransitionNetwork
