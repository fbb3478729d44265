import TransitionNetwork.Grammar.Basic
import TransitionNetwork.Text.Blank

/-!
The line notation of grammars: one production on a line, as in `A -> s + B`.

The first word of a line is its generator, and the generator of the first line is the start symbol.
Every generator is a nonterminal, `epsilon` in any case is the empty production and every other word
is a terminal. Empty lines and lines that begin with `#` do not count.
-/

namespace TransitionNetwork.Grammar

/-- Blanks and the characters of arrows and signs stand between words. -/
def separatesWords (c : Char) : Bool :=
  Text.isBlank c || ['\x27', '*', '-', '>', '<', '=', '+'].contains c

def isComment (line : String) : Bool :=
  (line.toList.dropWhile Text.isBlank).head? = some '#'

def isEpsilonWord (word : String) : Bool :=
  Text.sameUpToAsciiCase word epsilonWord

/-- A line that holds a production: its number, its first word and the words after it. -/
structure ProductionLine where
  number : Nat
  generator : String
  words : List String
  deriving DecidableEq, Repr

/-- Reads one line; comments and lines without words hold no production. -/
def ProductionLine.read? (line : String) (number : Nat) : Option ProductionLine :=
  if isComment line then none
  else
    match Text.wordsBy separatesWords line with
    | [] => none
    | generator :: words => some ⟨number, generator, words⟩

def productionLines (text : String) : List ProductionLine :=
  ((Text.pieces '\n' text).zipIdx 1).filterMap fun (line, number) =>
    ProductionLine.read? line number

/-- A production line that stops behind its generator. -/
structure TextError where
  line : Nat
  generator : String
  deriving DecidableEq, Repr

def TextError.code (_ : TextError) : String := "INVALID_RULE"

def TextError.message (error : TextError) : String :=
  s!"line {error.line}: production for '" ++ error.generator ++
    "' has no right-hand side (use '" ++ epsilonWord ++ "')"

/-- What a word of a production line stands for: a generator of some line comes first. -/
def classifyWord (grammar : Grammar) (word : String) : Symbol :=
  if grammar.hasNonterminal word then .nonterminal word
  else if isEpsilonWord word then .epsilon
  else .terminal word

/-- The grammar without rules that the generators of the lines declare. -/
def ofGenerators (generators : List String) : Grammar :=
  generators.foldl addNonterminal { start := generators.head? }

def addLine (grammar : Grammar) (line : ProductionLine) : Grammar :=
  grammar.addProduction ⟨line.generator, line.words.map grammar.classifyWord⟩

/-- The grammar that a text in line notation describes. -/
def ofText (text : String) : Except TextError Grammar :=
  let lines := productionLines text
  match lines.find? (·.words.isEmpty) with
  | some line => .error ⟨line.number, line.generator⟩
  | none => .ok (lines.foldl addLine (ofGenerators (lines.map (·.generator))))

/-- The line notation of a grammar's rules, one line for each. -/
def renderRules (grammar : Grammar) : String :=
  String.intercalate "\n" (grammar.rules.map Rule.render)

end TransitionNetwork.Grammar
