import TransitionNetwork.Automaton.Basic

/-!
Automata as text: a line for the machine, a line for each state and a line for each of its moves.
-/

namespace TransitionNetwork

def StateKind.render : StateKind → String
  | .normal => "Normal"
  | .accept => "Accept"
  | .error => "Error"

def State.render (state : State) : String :=
  state.name ++ ":" ++ state.kind.render

namespace Automaton

/-- The lines of a state: its terminal transitions, its calls, its epsilon move, its alternate. -/
def stateLines (automaton : Automaton) (state : State) : List String :=
  let move (target : Nat) (label : String) : String :=
    "    " ++ state.name ++ " -> " ++ (automaton.state target).name ++ "; " ++ label
  ("  " ++ state.render) ::
    (state.transitions.map (fun transition =>
        move transition.target ("Conds: " ++ String.intercalate "," transition.conditions)) ++
      state.calls.map (fun call => move call.target ("Call: " ++ call.callee)) ++
      state.epsilon.toList.map (fun transition =>
        move transition.target ("Conds: " ++ epsilonMark)) ++
      state.alternate.toList.map (fun transition => move transition.target "Alternate"))

/-- Every line ends with a line feed, the last one too. -/
def render (automaton : Automaton) : String :=
  let head := "machine " ++ automaton.name ++ " (initial: " ++ (automaton.state 0).name ++ ")"
  String.join ((head :: automaton.states.flatMap automaton.stateLines).map (· ++ "\n"))

end Automaton

end TransitionNetwork
