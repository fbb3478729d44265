import TransitionNetwork.Grammar.Basic
import TransitionNetwork.Reachability

/-!
Which nonterminals derive the empty string, and which can call themselves before they have consumed a
symbol.
-/

namespace TransitionNetwork

/-- Whether a symbol derives the empty string, given nonterminals that do. -/
def Symbol.vanishes (known : List String) : Symbol → Bool
  | .epsilon => true
  | .terminal _ => false
  | .nonterminal name => known.contains name

namespace Grammar

/-- A rule that shows one more nonterminal to derive the empty string. -/
def newlyNullable? (grammar : Grammar) (known : List String) : Option Rule :=
  grammar.rules.find? fun rule =>
    !known.contains rule.generator && rule.elements.all (·.vanishes known)

/-- Adds to the known nonterminals that derive the empty string all others. -/
def nullableFrom (grammar : Grammar) (known : List String) : List String :=
  match _hfound : grammar.newlyNullable? known with
  | none => known
  | some rule => nullableFrom grammar (rule.generator :: known)
termination_by (unvisited (grammar.rules.map (·.generator)) known).length
decreasing_by
  have hnew := List.find?_some _hfound
  simp only [Bool.and_eq_true, Bool.not_eq_true', List.contains_eq_mem, decide_eq_false_iff_not]
    at hnew
  exact length_unvisited_cons_lt (List.mem_map_of_mem (List.mem_of_find?_eq_some _hfound)) hnew.1

/-- The nonterminals that derive the empty string. -/
def nullable (grammar : Grammar) : List String :=
  grammar.nullableFrom []

/-- The nonterminals that a right-hand side may begin with, those before the first one that does not
vanish included. -/
def leading (nullable : List String) : List Symbol → List String
  | [] => []
  | .epsilon :: rest => leading nullable rest
  | .terminal _ :: _ => []
  | .nonterminal name :: rest =>
    name :: if nullable.contains name then leading nullable rest else []

/-- The nonterminals that may be called first by a nonterminal. -/
def leadingCalls (grammar : Grammar) (nullable : List String) (nonterminal : String) :
    List String :=
  (grammar.rulesFor nonterminal).flatMap fun rule => leading nullable rule.elements

/-- Whether a nonterminal comes back to itself along first calls. -/
def isLeftRecursive (grammar : Grammar) (nullable : List String) (nonterminal : String) : Bool :=
  let next := grammar.leadingCalls nullable
  (explore next (· = nonterminal) grammar.nonterminals (next nonterminal) []).1

/-- The first left-recursive nonterminal in the order of declaration. -/
def leftRecursive? (grammar : Grammar) : Option String :=
  grammar.nonterminals.find? (grammar.isLeftRecursive grammar.nullable)

end Grammar

end TransitionNetwork
