import TransitionNetwork.Grammar.Nullable
import TransitionNetwork.Network.Basic

/-!
What a grammar has to satisfy before it can be compiled: a declared start symbol, terminals apart from
nonterminals, declared symbols in its rules, a rule for every nonterminal and no left recursion. The
first of these that fails is reported.
-/

namespace TransitionNetwork

/-- Why a grammar has no network. -/
inductive CompileError
  | missingStart
  | unknownStart (symbol : String)
  | symbolClash (symbol : String)
  | undeclaredGenerator (rule : Rule)
  | undeclaredNonterminal (symbol : String) (rule : Rule)
  | noProductions (nonterminal : String)
  | leftRecursion (nonterminal : String)
  | network (error : NetworkError)
  deriving DecidableEq, Repr

namespace CompileError

def code : CompileError → String
  | missingStart => "MISSING_START_SYMBOL"
  | unknownStart _ => "UNKNOWN_START_SYMBOL"
  | symbolClash _ => "SYMBOL_CLASH"
  | undeclaredGenerator _ => "UNDECLARED_GENERATOR"
  | undeclaredNonterminal .. => "UNDECLARED_NONTERMINAL"
  | noProductions _ => "NO_PRODUCTIONS"
  | leftRecursion _ => "LEFT_RECURSION"
  | network error => error.code

def message : CompileError → String
  | missingStart => "grammar has no start symbol"
  | unknownStart symbol => "start symbol '" ++ symbol ++ "' is not a declared nonterminal"
  | symbolClash symbol =>
    "symbol '" ++ symbol ++ "' is used both as a terminal and a nonterminal"
  | undeclaredGenerator rule => "rule '" ++ rule.render ++ "' has an undeclared generator"
  | undeclaredNonterminal symbol rule =>
    "rule '" ++ rule.render ++ "' references undeclared nonterminal '" ++ symbol ++ "'"
  | noProductions nonterminal => "nonterminal '" ++ nonterminal ++ "' has no productions"
  | leftRecursion nonterminal => "nonterminal '" ++ nonterminal ++ "' is left-recursive"
  | network error => "automaton error: " ++ error.message

end CompileError

namespace Grammar

/-- A declared terminal that is a nonterminal too. -/
def clash? (grammar : Grammar) : Option CompileError :=
  (grammar.terminals.find? grammar.hasNonterminal).map .symbolClash

/-- What is wrong with a symbol of a rule. -/
def symbolError? (grammar : Grammar) (rule : Rule) : Symbol → Option CompileError
  | .nonterminal name =>
    if grammar.hasNonterminal name then none else some (.undeclaredNonterminal name rule)
  | .terminal name => if grammar.hasNonterminal name then some (.symbolClash name) else none
  | .epsilon => none

def ruleError? (grammar : Grammar) (rule : Rule) : Option CompileError :=
  if grammar.hasNonterminal rule.generator then
    rule.elements.findSome? (grammar.symbolError? rule)
  else some (.undeclaredGenerator rule)

def rulesError? (grammar : Grammar) : Option CompileError :=
  grammar.rules.findSome? grammar.ruleError?

/-- A nonterminal without a rule. -/
def barren? (grammar : Grammar) : Option CompileError :=
  (grammar.nonterminals.find? fun name => (grammar.rulesFor name).isEmpty).map .noProductions

def recursionError? (grammar : Grammar) : Option CompileError :=
  grammar.leftRecursive?.map .leftRecursion

/-- The start symbol of a grammar that can be compiled, or the first thing wrong with it. -/
def check (grammar : Grammar) : Except CompileError String :=
  match grammar.start with
  | none => .error .missingStart
  | some start =>
    if grammar.hasNonterminal start then
      match grammar.clash? <|> grammar.rulesError? <|> grammar.barren? <|>
          grammar.recursionError? with
      | some error => .error error
      | none => .ok start
    else .error (.unknownStart start)

end Grammar

end TransitionNetwork
