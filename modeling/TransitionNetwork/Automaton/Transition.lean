import TransitionNetwork.Automaton.Action

/-!
The moves of an automaton: transitions between its states and calls of other machines.
-/

namespace TransitionNetwork

/-- The condition of a move that takes no input. -/
def epsilonMark : String := "&epsilon"

/-- A move between two states, given by their indices. A terminal move has its inputs as conditions,
an epsilon move has the epsilon mark and an alternate move has none. -/
structure Transition where
  source : Nat
  target : Nat
  conditions : List String
  action : Option Action := none
  deriving DecidableEq, Repr, Inhabited

namespace Transition

def epsilon (source target : Nat) (action : Option Action := none) : Transition :=
  { source, target, conditions := [epsilonMark], action }

def alternate (source target : Nat) (action : Option Action := none) : Transition :=
  { source, target, conditions := [], action }

def accepts (transition : Transition) (input : String) : Bool :=
  transition.conditions.contains input

def isEpsilon (transition : Transition) : Bool :=
  transition.accepts epsilonMark

/-- Whether two transitions make the same move on the same inputs; the order of the conditions and
the actions do not count. -/
def sameMove (left right : Transition) : Bool :=
  left.source = right.source && left.target = right.target &&
    left.conditions.all right.conditions.contains && right.conditions.all left.conditions.contains

end Transition

/-- A call of another machine. The caller waits at the source and goes on from the target when the
callee has accepted. -/
structure Call where
  source : Nat
  target : Nat
  callee : String
  before : Option Action := none
  after : Option Action := none
  deriving DecidableEq, Repr, Inhabited

/-- The move that the caller makes when the callee has accepted. -/
def Call.toTransition (call : Call) : Transition :=
  { source := call.source, target := call.target, conditions := [call.callee],
    action := call.after }

/-- The action before a call does not count either. -/
def Call.sameMove (left right : Call) : Bool :=
  left.toTransition.sameMove right.toTransition

end TransitionNetwork
