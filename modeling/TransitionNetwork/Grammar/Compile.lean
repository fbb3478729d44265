import TransitionNetwork.Grammar.Check
import TransitionNetwork.Grammar.Json
import TransitionNetwork.Checksum

/-!
From a grammar to its network: one machine for each nonterminal.

The machine of a nonterminal is a trie of its right-hand sides. Rules with a common beginning share
the states for it. A terminal is a transition that appends a leaf, and everything else at its source
goes to the error state; a nonterminal is a call. The end of a right-hand side has an epsilon move to
the final state.
-/

namespace TransitionNetwork

namespace Trie

def finalName : String := "Final"

def errorName : String := "Error"

/-- The states of a trie before any rule: the root, then the final state, then the error state, which
takes every symbol. -/
def root : Nat := 0

def final : Nat := 1

def error : Nat := 2

def empty (nonterminal : String) : Automaton :=
  let automaton := Automaton.single nonterminal
  let automaton := (automaton.addState finalName).setKind final .accept
  let automaton := (automaton.addState errorName).setKind error .error
  automaton.setAlternate error error

/-- The name of the next state: the states after the first three are numbered from one. -/
def freshName (automaton : Automaton) (symbol : String) : String :=
  let number := automaton.size - 2
  s!"State{number}_" ++ symbol

/-- Adds a state for a symbol and answers its index. -/
def addFresh (automaton : Automaton) (symbol : String) : Automaton × Nat :=
  let name := freshName automaton symbol
  let automaton := automaton.addState name
  (automaton, (automaton.index? name).getD root)

/-- Goes on from a state by one symbol, along the move that is there or along a new one. The empty
production joins the root to the final state. -/
def extend (automaton : Automaton) (source : Nat) : Symbol → Automaton × Nat
  | .terminal name =>
    match (automaton.state source).transition? name with
    | some transition => (automaton, transition.target)
    | none =>
      let (automaton, target) := addFresh automaton name
      let transition := { source, target, conditions := [name], action := some .leaf }
      ((automaton.addTransition transition).setAlternate source error, target)
  | .nonterminal name =>
    match (automaton.state source).call? name with
    | some call => (automaton, call.target)
    | none =>
      let (automaton, target) := addFresh automaton name
      let call :=
        { source, target, callee := name, before := some .descend, after := some .ascend }
      (automaton.addCall call, target)
  | .epsilon => (automaton.setEpsilon root final, source)

/-- Goes from the root along the symbols. -/
def extendAll (automaton : Automaton) (symbols : List Symbol) : Automaton × Nat :=
  symbols.foldl (fun (automaton, source) symbol => extend automaton source symbol)
    (automaton, root)

/-- Adds a right-hand side; its end leads to the final state. -/
def addRule (automaton : Automaton) (rule : Rule) : Automaton :=
  let (automaton, last) := extendAll automaton rule.elements
  if last = root then automaton else automaton.setEpsilon last final

end Trie

/-- A grammar with its network. -/
structure GrammarNetwork where
  grammar : Grammar
  start : String
  network : Network

namespace Grammar

/-- The machine of a nonterminal. -/
def machine (grammar : Grammar) (nonterminal : String) : Automaton :=
  (grammar.rulesFor nonterminal).foldl Trie.addRule (Trie.empty nonterminal)

/-- The machines of a grammar, that of the start symbol first. -/
def machines (grammar : Grammar) (start : String) : List Automaton :=
  (start :: grammar.nonterminals.filter (· ≠ start)).map grammar.machine

def checksum (grammar : Grammar) : String :=
  Checksum.ofText grammar.toJson.compact

def compile (grammar : Grammar) : Except CompileError GrammarNetwork :=
  match grammar.check with
  | .error error => .error error
  | .ok start =>
    match Network.ofMachines (grammar.machines start) (some start) with
    | .error error => .error (.network error)
    | .ok network => .ok { grammar, start, network }

end Grammar

def GrammarNetwork.checksum (compiled : GrammarNetwork) : String :=
  compiled.grammar.checksum

end TransitionNetwork
