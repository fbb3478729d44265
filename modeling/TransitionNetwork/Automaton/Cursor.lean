import TransitionNetwork.Automaton.Basic

/-!
Running one automaton.

A cursor is an automaton with the state it stands at. Its operations report the actions of the moves
they make to a recorder.
-/

namespace TransitionNetwork

structure Cursor where
  automaton : Automaton
  state : Nat := 0

/-- Why a cursor cannot be moved. -/
structure UnknownState where
  machine : String
  state : String
  deriving DecidableEq, Repr

def UnknownState.code (_ : UnknownState) : String := "UNKNOWN_STATE"

def UnknownState.message (error : UnknownState) : String :=
  "state not found: " ++ error.machine ++ ":" ++ error.state

namespace Cursor

variable {σ : Type} [Recorder σ]

/-- The cursor at the initial state. -/
def start (automaton : Automaton) : Cursor := ⟨automaton, 0⟩

def machine (cursor : Cursor) : String := cursor.automaton.name

def current (cursor : Cursor) : State := cursor.automaton.state cursor.state

def atAccept (cursor : Cursor) : Bool := cursor.current.isAccept

def atError (cursor : Cursor) : Bool := cursor.current.isError

def restart (cursor : Cursor) : Cursor := start cursor.automaton

/-- Where the cursor stands, as text. -/
def render (cursor : Cursor) : String :=
  "StateMachine:" ++ cursor.machine ++ "; cs:" ++ cursor.current.name

/-- Performs an action and moves. -/
def move (cursor : Cursor) (target : Nat) (action : Option Action) (recorder : σ) : Cursor × σ :=
  ({ cursor with state := target }, record action cursor.machine recorder)

/-- Applies an input with at most the given number of epsilon moves before it. -/
def applyWithin (input : String) (moves : Nat) (cursor : Cursor) (recorder : σ) :
    Bool × Cursor × σ :=
  match cursor.current.transition? input with
  | some transition => (true, cursor.move transition.target transition.action recorder)
  | none =>
    match cursor.current.epsilon with
    | some epsilon =>
      match moves with
      | 0 => (false, cursor, recorder)
      | moves + 1 =>
        let (cursor, recorder) := cursor.move epsilon.target epsilon.action recorder
        applyWithin input moves cursor recorder
    | none =>
      match cursor.current.alternate with
      | some alternate => (true, cursor.move alternate.target alternate.action recorder)
      | none => (false, cursor, recorder)

/-- Applies one input: by a terminal transition if there is one, else behind the epsilon move, else
by the alternate. The answer is whether the input was consumed; epsilon moves made for an input that
is not consumed stay made. As many epsilon moves as there are states pass any state but those of a
cycle, so more would not help. -/
def apply (cursor : Cursor) (input : String) (recorder : σ) : Bool × Cursor × σ :=
  applyWithin input cursor.automaton.size cursor recorder

/-- Makes the epsilon move of the current state, if it has one. -/
def stepEpsilon (cursor : Cursor) (recorder : σ) : Cursor × σ :=
  match cursor.current.epsilon with
  | some epsilon => cursor.move epsilon.target epsilon.action recorder
  | none => (cursor, recorder)

/-- The epsilon moves from a state up to the first accept state or state without one, if there are at
most the given number of them. -/
def epsilonPath (automaton : Automaton) (moves : Nat) (index : Nat) : Option (List Transition) :=
  let state := automaton.state index
  if state.isAccept then some []
  else
    match state.epsilon with
    | none => some []
    | some epsilon =>
      match moves with
      | 0 => none
      | moves + 1 => (epsilonPath automaton moves epsilon.target).map (epsilon :: ·)

/-- Follows the epsilon moves up to an accept state or a state without one. In a cycle without such a
state the cursor stays where it is and no action is performed. The answer is whether the cursor is at
an accept state then. -/
def epsilonClosure (cursor : Cursor) (recorder : σ) : Bool × Cursor × σ :=
  match epsilonPath cursor.automaton cursor.automaton.size cursor.state with
  | none => (cursor.atAccept, cursor, recorder)
  | some path =>
    let (cursor, recorder) := path.foldl (fun (cursor, recorder) epsilon =>
      cursor.move epsilon.target epsilon.action recorder) (cursor, recorder)
    (cursor.atAccept, cursor, recorder)

/-- The cursor behind its epsilon moves, with what they have performed. -/
def settle (cursor : Cursor) (recorder : σ) : Cursor × σ :=
  (cursor.epsilonClosure recorder).2

/-- Moves past the first call of a machine that has accepted. -/
def returnFrom (cursor : Cursor) (callee : String) (recorder : σ) : Cursor × σ :=
  match cursor.current.call? callee with
  | some call => cursor.move call.target call.after recorder
  | none => (cursor, recorder)

/-- Moves to a named state without performing anything. -/
def goTo (cursor : Cursor) (name : String) : Except UnknownState Cursor :=
  match cursor.automaton.index? name with
  | some index => .ok { cursor with state := index }
  | none => .error ⟨cursor.machine, name⟩

/-- Applies every input, consumed or not, and settles. -/
def run (cursor : Cursor) (inputs : List String) (recorder : σ) : Cursor × σ :=
  let (cursor, recorder) := inputs.foldl
    (fun (cursor, recorder) input => (cursor.apply input recorder).2) (cursor, recorder)
  cursor.settle recorder

end Cursor

end TransitionNetwork
