import TransitionNetwork.Token.Error
import TransitionNetwork.Text.Lowercase

/-!
Lexicons: words with their categories, the preferred category first.
-/

namespace TransitionNetwork

structure Lexicon where
  entries : Dictionary (List String) := []
  deriving DecidableEq, Repr, Inhabited

namespace Lexicon

def size (lexicon : Lexicon) : Nat := lexicon.entries.length

def categories? (lexicon : Lexicon) (word : String) : Option (List String) :=
  lexicon.entries.get? word

/-- Adds a category to a word unless the word has it. -/
def insert (lexicon : Lexicon) (word category : String) : Lexicon :=
  let categories := (lexicon.categories? word).getD []
  if category ∈ categories then lexicon
  else ⟨lexicon.entries.insert word (categories ++ [category])⟩

/-- Adds words with a category each. -/
def insertAll (lexicon : Lexicon) (pairs : List (String × String)) : Lexicon :=
  pairs.foldl (fun lexicon (word, category) => lexicon.insert word category) lexicon

/-- The categories of an entry: one text or a list of texts. -/
def categoriesOfDocument? : Document → Option (List String)
  | .list items => items.mapM Document.strictText?
  | document => document.strictText?.map ([·])

def ofDocument? (document : Document) : Option Lexicon := do
  let entries ← document.namedEntries?
  let entries ← entries.mapM fun (word, categories) =>
    (categoriesOfDocument? categories).map (word, ·)
  return ⟨Dictionary.ofEntries entries⟩

/-- A list of categories for each word. -/
def toJson (lexicon : Lexicon) : Json :=
  .object (lexicon.entries.map fun (word, categories) => (word, .array (categories.map .string)))

/-- How words are looked up. -/
structure Lookup where
  /-- The category of words that are not in the lexicon. -/
  unknownCategory : Option String := none
  /-- Whether a word that is missing is not tried again in lowercase. -/
  caseSensitive : Bool := false
  deriving DecidableEq, Repr, Inhabited

/-- The readings of a word, each with the word as it stands for its lexeme. -/
def lookup (lexicon : Lexicon) (rules : Lookup) (word : String) : Except TokenError (List Token) :=
  let found := lexicon.categories? word <|>
    if rules.caseSensitive then none else lexicon.categories? (Text.lowercase word)
  match found, rules.unknownCategory with
  | some [], _ => .error (.emptyEntry word)
  | some categories, _ => .ok (categories.map fun category => { category, lexeme := word })
  | none, some category => .ok [{ category, lexeme := word }]
  | none, none => .error (.unknownWord word)

end Lexicon

end TransitionNetwork
