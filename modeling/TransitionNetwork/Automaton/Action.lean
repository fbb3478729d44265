/-!
Actions on transitions and the recorders that receive them.

An action is a mark on a transition. What it does is up to the recorder that a run reports it to: a
recorder can be marked and, as long as the run goes no further back, rewound to the mark.
-/

namespace TransitionNetwork

inductive Action
  /-- Append a leaf for the current token. -/
  | leaf
  /-- Open a node for the called machine and move into it. -/
  | descend
  /-- Move back to the parent node. -/
  | ascend
  deriving DecidableEq, Repr, Inhabited

namespace Action

def name : Action → String
  | leaf => "leaf"
  | descend => "descend"
  | ascend => "ascend"

def ofName? (name : String) : Option Action :=
  [leaf, descend, ascend].find? (·.name = name)

end Action

/-- A receiver of actions. Each comes with the name of the machine in control: the callee for the
action before a call, the caller for the action after it. -/
class Recorder (σ : Type) where
  perform : Action → String → σ → σ
  /-- Sets a point to come back to; a recorder may keep its marks in itself. -/
  mark : σ → Nat × σ := fun recorder => (0, recorder)
  /-- Undoes what was performed since the mark. A recorder that cannot do so stays as it is. -/
  rewind : Nat → σ → σ := fun _ recorder => recorder

/-- The recorder that takes no notice. -/
instance : Recorder Unit where
  perform _ _ recorder := recorder

/-- The actions of a run in order, each with its machine. -/
structure Log where
  entries : List (Action × String) := []
  deriving DecidableEq, Repr, Inhabited

/-- One line for each action. -/
def Log.lines (log : Log) : List String :=
  log.entries.map fun (action, machine) => action.name ++ " " ++ machine

instance : Recorder Log where
  perform action machine log := ⟨log.entries ++ [(action, machine)]⟩
  mark log := (log.entries.length, log)
  rewind mark log := ⟨log.entries.take mark⟩

/-- Performs an action if there is one. -/
def record {σ : Type} [Recorder σ] (action : Option Action) (machine : String) (recorder : σ) : σ :=
  match action with
  | some action => Recorder.perform action machine recorder
  | none => recorder

end TransitionNetwork
