import TransitionNetwork.Dictionary
import TransitionNetwork.Document.Basic

/-!
Tokens: one reading of a word. The category is the terminal that the grammar sees, the lexeme is the
word as it stands in the sentence.
-/

namespace TransitionNetwork

structure Token where
  category : String
  lexeme : String
  attributes : Dictionary String := []
  deriving DecidableEq, Repr, Inhabited

namespace Token

def render (token : Token) : String :=
  token.lexeme ++ "/" ++ token.category

/-- Attributes are left out when there are none. -/
def toJson (token : Token) : Json :=
  .object ([("category", .string token.category), ("lexeme", .string token.lexeme)] ++
    if token.attributes = [] then []
    else [("attributes", .object (token.attributes.map fun (key, value) => (key, .string value)))])

def attributesOfDocument? (document : Document) : Option (Dictionary String) := do
  let entries ← document.namedEntries?
  let entries ← entries.mapM fun (key, value) => value.text?.map (key, ·)
  return Dictionary.ofEntries entries

def ofDocument? (document : Document) : Option Token :=
  match document.fields? ["category", "lexeme", "attributes"] with
  | some [some category, some lexeme, attributes] => do
    let category ← category.text?
    let lexeme ← lexeme.text?
    let attributes ← Document.orDefault [] attributesOfDocument? attributes
    return { category, lexeme, attributes }
  | _ => none

end Token

end TransitionNetwork
