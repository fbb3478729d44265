/-!
Context-free grammars.

Nonterminals, terminals and rules are kept in the order of declaration, which decides the order of
machines and of their calls.
-/

namespace TransitionNetwork

/-- One symbol on the right-hand side of a rule. -/
inductive Symbol
  | terminal (name : String)
  | nonterminal (name : String)
  /-- Stands for no symbol at all. -/
  | epsilon
  deriving DecidableEq, Repr, Inhabited

/-- The word that stands for the empty production. -/
def epsilonWord : String := "epsilon"

def Symbol.name : Symbol → String
  | .terminal name => name
  | .nonterminal name => name
  | .epsilon => epsilonWord

/-- A production: the generator may be replaced by the elements. -/
structure Rule where
  generator : String
  elements : List Symbol
  deriving DecidableEq, Repr, Inhabited

/-- A rule on one line: `A -> b + C`. -/
def Rule.render (rule : Rule) : String :=
  let names := rule.elements.map Symbol.name
  rule.generator ++ " ->" ++ if names = [] then "" else " " ++ String.intercalate " + " names

structure Grammar where
  start : Option String := none
  nonterminals : List String := []
  terminals : List String := []
  rules : List Rule := []
  deriving DecidableEq, Repr, Inhabited

namespace Grammar

def hasNonterminal (grammar : Grammar) (name : String) : Bool :=
  grammar.nonterminals.contains name

def hasTerminal (grammar : Grammar) (name : String) : Bool :=
  grammar.terminals.contains name

def hasRule (grammar : Grammar) (rule : Rule) : Bool :=
  grammar.rules.contains rule

/-- The rules of a nonterminal, in the order of declaration. -/
def rulesFor (grammar : Grammar) (nonterminal : String) : List Rule :=
  grammar.rules.filter (·.generator = nonterminal)

/-- Declares a nonterminal; a second declaration changes nothing. -/
def addNonterminal (grammar : Grammar) (name : String) : Grammar :=
  if grammar.hasNonterminal name then grammar
  else { grammar with nonterminals := grammar.nonterminals ++ [name] }

/-- Declares a terminal; a second declaration changes nothing. -/
def addTerminal (grammar : Grammar) (name : String) : Grammar :=
  if grammar.hasTerminal name then grammar
  else { grammar with terminals := grammar.terminals ++ [name] }

/-- Adds a rule; a rule that is there already changes nothing. -/
def addRule (grammar : Grammar) (rule : Rule) : Grammar :=
  if grammar.hasRule rule then grammar
  else { grammar with rules := grammar.rules ++ [rule] }

def setStart (grammar : Grammar) (name : String) : Grammar :=
  { grammar with start := some name }

/-- Declares the terminals among the symbols. -/
def addTerminals (grammar : Grammar) (symbols : List Symbol) : Grammar :=
  symbols.foldl (fun grammar symbol =>
    match symbol with
    | .terminal name => grammar.addTerminal name
    | _ => grammar) grammar

/-- Adds a rule and declares the terminals on its right-hand side. -/
def addProduction (grammar : Grammar) (rule : Rule) : Grammar :=
  (grammar.addTerminals rule.elements).addRule rule

/-! ### Lemmas -/

theorem mem_rulesFor {grammar : Grammar} {nonterminal : String} {rule : Rule} :
    rule ∈ grammar.rulesFor nonterminal ↔
      rule ∈ grammar.rules ∧ rule.generator = nonterminal := by
  simp [rulesFor]

@[simp] theorem hasNonterminal_iff {grammar : Grammar} {name : String} :
    grammar.hasNonterminal name = true ↔ name ∈ grammar.nonterminals := by
  simp [hasNonterminal]

@[simp] theorem hasTerminal_iff {grammar : Grammar} {name : String} :
    grammar.hasTerminal name = true ↔ name ∈ grammar.terminals := by
  simp [hasTerminal]

theorem mem_nonterminals_addNonterminal {grammar : Grammar} {name other : String} :
    other ∈ (grammar.addNonterminal name).nonterminals ↔
      other ∈ grammar.nonterminals ∨ other = name := by
  unfold addNonterminal
  split
  · next hdeclared =>
    constructor
    · exact .inl
    · rintro (hother | rfl)
      · exact hother
      · exact hasNonterminal_iff.mp hdeclared
  · simp

end Grammar

end TransitionNetwork
