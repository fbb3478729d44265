import TransitionNetwork.Token.Script
import TransitionNetwork.Token.Lexicon

/-!
Tokenizers: the words of a sentence one after the other, each with its readings.
-/

namespace TransitionNetwork

/-- What a word was found to be: readings in order of preference, or the reason why there are none. -/
abbrev Readings := Except TokenError (List Token)

/-- Where the readings of words come from. -/
inductive WordSource
  | script
  | lexicon (entries : Lexicon) (rules : Lexicon.Lookup)
  deriving Inhabited

/-- The readings of every word of a text. A script fails as a whole; a lexicon fails at the word. -/
def WordSource.read : WordSource → String → Except TokenError (List Readings)
  | .script, text => (Script.parse text).map (·.map .ok)
  | .lexicon entries rules, text => .ok ((Text.words text).map (entries.lookup rules))

structure Tokenizer where
  source : WordSource := .script
  words : List Readings := []
  cursor : Nat := 0
  deriving Inhabited

namespace Tokenizer

/-- A tokenizer for prepared readings. -/
def ofPositions (positions : List (List Token)) : Tokenizer := { words := positions.map .ok }

/-- Starts on a new text. A text that cannot be read leaves the tokenizer as it was. -/
def setInput (tokenizer : Tokenizer) (text : String) : Except TokenError Unit × Tokenizer :=
  match tokenizer.source.read text with
  | .ok words => (.ok (), { tokenizer with words, cursor := 0 })
  | .error error => (.error error, tokenizer)

def hasMore (tokenizer : Tokenizer) : Bool := tokenizer.cursor < tokenizer.words.length

/-- The words that have not been taken. -/
def remaining (tokenizer : Tokenizer) : List Readings := tokenizer.words.drop tokenizer.cursor

/-- The readings that there are, word by word. -/
def positions (tokenizer : Tokenizer) : List (List Token) :=
  tokenizer.words.filterMap (·.toOption)

/-- Takes the readings of the next word. A word that has none because of an error is not taken. -/
def candidates (tokenizer : Tokenizer) : Readings × Tokenizer :=
  match tokenizer.words[tokenizer.cursor]? with
  | none => (.error .exhausted, tokenizer)
  | some (.error error) => (.error error, tokenizer)
  | some (.ok tokens) => (.ok tokens, { tokenizer with cursor := tokenizer.cursor + 1 })

/-- The preferred reading; an empty list of readings has none. -/
def preferred (readings : Readings) : Except TokenError Token :=
  match readings with
  | .error error => .error error
  | .ok [] => .error .exhausted
  | .ok (token :: _) => .ok token

/-- Takes the next word in its preferred reading. -/
def next (tokenizer : Tokenizer) : Except TokenError Token × Tokenizer :=
  let (readings, tokenizer) := tokenizer.candidates
  (preferred readings, tokenizer)

/-- Takes the given number of words, up to the first error. -/
def takeWords : Nat → Tokenizer → Except TokenError (List (List Token)) × Tokenizer
  | 0, tokenizer => (.ok [], tokenizer)
  | count + 1, tokenizer =>
    match tokenizer.candidates with
    | (.error error, tokenizer) => (.error error, tokenizer)
    | (.ok tokens, tokenizer) =>
      let (rest, tokenizer) := takeWords count tokenizer
      (rest.map (tokens :: ·), tokenizer)

/-- Takes all words that are left. -/
def rest (tokenizer : Tokenizer) : Except TokenError (List (List Token)) × Tokenizer :=
  takeWords tokenizer.remaining.length tokenizer

end Tokenizer

end TransitionNetwork
