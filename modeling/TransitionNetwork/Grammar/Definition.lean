import TransitionNetwork.Grammar.Text
import TransitionNetwork.Document.Basic
import TransitionNetwork.Dictionary

/-!
Grammar definitions: the record in which a JSON or YAML file describes a grammar.

Every left-hand side is a nonterminal. On a right-hand side the word `epsilon` in any case and an
empty list are the empty production, the name of a left-hand side is a nonterminal and every other
word is a terminal. A definition that lists its terminals may use no others.
-/

namespace TransitionNetwork

structure RuleDefinition where
  lhs : String
  rhs : List String := []
  deriving DecidableEq, Repr, Inhabited

structure Definition where
  /-- The generator of the first rule unless set. -/
  start : Option String := none
  terminals : List String := []
  rules : List RuleDefinition
  /-- Remarks that no rule depends on. -/
  remarks : Dictionary Json := []
  deriving Inhabited

/-! ### Reading a definition -/

/-- A right-hand side: a text of words, a list of symbols, or null for none. -/
def RuleDefinition.rhsOfDocument? : Document → Option (List String)
  | .list items => items.mapM Document.text?
  | document =>
    match document.value? with
    | some (.string text) => some (Text.words text)
    | some .null => some []
    | _ => none

def RuleDefinition.ofDocument? (document : Document) : Option RuleDefinition :=
  match document.fields? ["lhs", "rhs"] with
  | some [some lhs, rhs] => do
    let lhs ← lhs.text?
    let rhs ← Document.orDefault [] rhsOfDocument? rhs
    return { lhs, rhs }
  | _ => none

def Definition.remarksOfDocument? (document : Document) : Option (Dictionary Json) := do
  let entries ← document.namedEntries?
  let entries ← entries.mapM fun (key, value) => value.toJson?.map (key, ·)
  return Dictionary.ofEntries entries

def Definition.ofDocument? (document : Document) : Option Definition :=
  match document.fields? ["start", "terminals", "rules", "meta"] with
  | some [start, terminals, some rules, remarks] => do
    let start ← Document.orDefault none Document.optionalText? start
    let terminals ← Document.orDefault [] (Document.listOf? Document.text?) terminals
    let rules ← rules.listOf? RuleDefinition.ofDocument?
    let remarks ← Document.orDefault [] remarksOfDocument? remarks
    return { start, terminals, rules, remarks }
  | _ => none

def RuleDefinition.toJson (rule : RuleDefinition) : Json :=
  .object [("lhs", .string rule.lhs), ("rhs", .array (rule.rhs.map .string))]

/-- The start symbol, the terminals and the remarks are left out when there are none. -/
def Definition.toJson (definition : Definition) : Json :=
  .object ((definition.start.toList.map fun name => ("start", .string name)) ++
    (if definition.terminals = [] then []
      else [("terminals", .array (definition.terminals.map .string))]) ++
    [("rules", .array (definition.rules.map RuleDefinition.toJson))] ++
    (if definition.remarks.isEmpty then [] else [("meta", .object definition.remarks)]))

/-! ### From a definition to its grammar -/

/-- Why a definition describes no grammar. -/
inductive DefinitionError
  | noRules
  | emptyGenerator
  | undeclaredTerminal (generator symbol : String)
  deriving DecidableEq, Repr

def DefinitionError.code (_ : DefinitionError) : String := "INVALID_DEFINITION"

def DefinitionError.reason : DefinitionError → String
  | .noRules => "definition has no rules"
  | .emptyGenerator => "rule with an empty lhs"
  | .undeclaredTerminal generator symbol =>
    "rule for '" ++ generator ++ "' uses undeclared terminal '" ++ symbol ++ "'"

def DefinitionError.message (error : DefinitionError) : String :=
  "invalid grammar definition: " ++ error.reason

namespace Definition

/-- What a word of a right-hand side stands for: the empty production comes first. -/
def classifyWord (grammar : Grammar) (word : String) : Symbol :=
  if Grammar.isEpsilonWord word then .epsilon
  else if grammar.hasNonterminal word then .nonterminal word
  else .terminal word

/-- The symbols of a right-hand side; an empty one is the empty production. -/
def classifyRhs (grammar : Grammar) (rhs : List String) : List Symbol :=
  if rhs = [] then [.epsilon] else rhs.map (classifyWord grammar)

/-- The first terminal of a rule that the grammar does not declare. -/
def undeclared? (grammar : Grammar) (rule : RuleDefinition) : Option DefinitionError :=
  (classifyRhs grammar rule.rhs).findSome? fun
    | .terminal name =>
      if grammar.hasTerminal name then none else some (.undeclaredTerminal rule.lhs name)
    | _ => none

/-- The declared symbols of a definition, as a grammar without rules. -/
def declarations (definition : Definition) : Grammar :=
  definition.terminals.foldl Grammar.addTerminal
    (definition.rules.foldl (fun grammar rule => grammar.addNonterminal rule.lhs) {})

/-- The first thing that is wrong with a definition. -/
def error? (definition : Definition) : Option DefinitionError :=
  if definition.rules = [] then some .noRules
  else if definition.rules.any fun rule => Text.trim rule.lhs = "" then some .emptyGenerator
  else if definition.terminals = [] then none
  else definition.rules.findSome? (undeclared? definition.declarations)

def addRule (grammar : Grammar) (rule : RuleDefinition) : Grammar :=
  grammar.addProduction ⟨rule.lhs, classifyRhs grammar rule.rhs⟩

/-- The start symbol: the given one, or the generator of the first rule. -/
def startSymbol (definition : Definition) : Option String :=
  definition.start <|> definition.rules.head?.map (·.lhs)

def toGrammar (definition : Definition) : Except DefinitionError Grammar :=
  match definition.error? with
  | some error => .error error
  | none =>
    .ok { definition.rules.foldl addRule definition.declarations with
      start := definition.startSymbol }

end Definition

end TransitionNetwork
