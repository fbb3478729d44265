import TransitionNetwork.Network.Basic
import TransitionNetwork.Reachability

/-!
One symbol of lookahead: which call of a state may be taken.

A call is eligible when its callee can come, by epsilon moves and by entering further calls, to a
state that accepts or that has a transition on the symbol at hand.
-/

namespace TransitionNetwork.Network

/-- A state of a network: the name of the machine and the index of the state. -/
abbrev Place := String × Nat

def places (network : Network) : List Place :=
  network.machines.flatMap fun machine =>
    (List.range machine.size).map fun index => (machine.name, index)

/-- The state at a place. -/
def stateAt (network : Network) (place : Place) : State :=
  ((network.machine? place.1).map (·.state place.2)).getD { name := "" }

/-- The initial states of the machines that a place calls, then the state behind its epsilon move. -/
def successors (network : Network) (place : Place) : List Place :=
  let state := network.stateAt place
  state.calls.map (fun call => (call.callee, 0)) ++
    state.epsilon.toList.map fun epsilon => (place.1, epsilon.target)

/-- Whether a place accepts or takes the symbol, if there is one. -/
def welcomes (network : Network) (symbol : Option String) (place : Place) : Bool :=
  let state := network.stateAt place
  state.isAccept || symbol.any state.hasTransition

/-- Whether a machine can begin with the symbol, or accept without one. Places visited before are
left out; the answer comes with those visited now. -/
def canStart (network : Network) (symbol : Option String) (machine : String) (seen : List Place) :
    Bool × List Place :=
  explore network.successors (network.welcomes symbol) network.places [(machine, 0)] seen

/-- The first call whose machine can start. What one machine was found not to reach is not searched
again for the next. -/
def eligibleCall? (network : Network) (symbol : Option String) (calls : List Call)
    (seen : List Place := []) : Option Call :=
  match calls with
  | [] => none
  | call :: calls =>
    match network.canStart symbol call.callee seen with
    | (true, _) => some call
    | (false, seen) => network.eligibleCall? symbol calls seen

end TransitionNetwork.Network
