import TransitionNetwork.Token.Error
import TransitionNetwork.Text.Blank

/-!
Scripts: sentences that carry the categories of their words.

A word is `lexeme/category|category...`, or a bare word that is its own lexeme and lists its
categories itself. No category may be empty.
-/

namespace TransitionNetwork.Script

/-- The lexeme and the categories of a word, split at its first slash. -/
def splitWord (word : List Char) : List Char × List Char :=
  if '/' ∈ word then
    (word.takeWhile (· ≠ '/'), (word.dropWhile (· ≠ '/')).drop 1)
  else (word, word)

/-- The readings of a word, one for each category. -/
def parseWord (word : String) : Except TokenError (List Token) :=
  let (lexeme, categories) := splitWord word.toList
  let categories := Text.piecesOf '|' categories
  if [] ∈ categories then .error (.emptyCategory word)
  else .ok (categories.map fun category =>
    { category := String.ofList category, lexeme := String.ofList lexeme })

/-- The readings of every word of a script; the first word that cannot be read is reported. -/
def parse (text : String) : Except TokenError (List (List Token)) :=
  (Text.words text).mapM parseWord

/-- One unambiguous reading for each category. -/
def ofCategories (categories : List String) : List (List Token) :=
  categories.map fun category => [{ category, lexeme := category }]

/-- The word of a list of readings that share a lexeme. -/
def renderWord (tokens : List Token) : String :=
  ((tokens.head?.map (·.lexeme)).getD "") ++ "/" ++
    String.intercalate "|" (tokens.map (·.category))

def render (positions : List (List Token)) : String :=
  String.intercalate " " (positions.map renderWord)

end TransitionNetwork.Script
