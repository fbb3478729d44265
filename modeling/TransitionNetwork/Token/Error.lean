import TransitionNetwork.Token

/-!
Why a word of a sentence cannot be read.
-/

namespace TransitionNetwork

inductive TokenError
  /-- A word of a script has an empty category. -/
  | emptyCategory (word : String)
  /-- No word is left. -/
  | exhausted
  /-- A word is not in the lexicon and there is no category for unknown words. -/
  | unknownWord (word : String)
  /-- A word is in the lexicon without a category. -/
  | emptyEntry (word : String)
  deriving DecidableEq, Repr

namespace TokenError

def code : TokenError → String
  | emptyCategory _ => "EMPTY_CATEGORY"
  | exhausted => "EXHAUSTED"
  | unknownWord _ => "UNKNOWN_WORD"
  | emptyEntry _ => "EMPTY_ENTRY"

def message : TokenError → String
  | emptyCategory word => "word '" ++ word ++ "' has an empty category"
  | exhausted => "tokenizer has no more tokens"
  | unknownWord word => "unknown word: " ++ word
  | emptyEntry word => "word '" ++ word ++ "' has no categories"

end TokenError

end TransitionNetwork
