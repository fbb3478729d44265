import TransitionNetwork.Document.Basic
import TransitionNetwork.Json.Reader
import TransitionNetwork.Yaml.Reader
import TransitionNetwork.Text.Blank
import TransitionNetwork.Files

/-!
The formats a document can be written in.
-/

namespace TransitionNetwork

inductive Format
  | json
  | yaml
  deriving DecidableEq, Repr, Inhabited

/-- How many containers may lie within each other where content of any form is kept. -/
def Format.maxDepth : Format → Nat
  | json => 127
  | yaml => 128

/-- The content of a text in a format. -/
def Document.read? (format : Format) (text : String) : Option Document :=
  match format with
  | .json => (Json.read? text).map Document.ofJson
  | .yaml => Yaml.read? text

/-- The format that a file's extension names, in any case of its letters. -/
def Format.ofPath? (path : String) : Option Format :=
  match (extension? path).map Text.asciiLower with
  | some "json" => some .json
  | some "yaml" => some .yaml
  | some "yml" => some .yaml
  | _ => none

end TransitionNetwork
