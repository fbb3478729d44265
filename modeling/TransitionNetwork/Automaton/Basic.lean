import TransitionNetwork.Automaton.Transition

/-!
Automata: numbered states with their moves.

The first state is the initial one. States are found by name, and adding a name twice adds one
state. Every move of an automaton leads to one of its states, which the type records.
-/

namespace TransitionNetwork

inductive StateKind
  | normal
  | accept
  | error
  deriving DecidableEq, Repr, Inhabited

structure State where
  name : String
  kind : StateKind := .normal
  transitions : List Transition := []
  calls : List Call := []
  epsilon : Option Transition := none
  alternate : Option Transition := none
  deriving DecidableEq, Repr, Inhabited

namespace State

def isAccept (state : State) : Bool := state.kind = .accept

def isError (state : State) : Bool := state.kind = .error

/-- The first terminal transition on an input. -/
def transition? (state : State) (input : String) : Option Transition :=
  state.transitions.find? (·.accepts input)

/-- The first call of a machine. -/
def call? (state : State) (callee : String) : Option Call :=
  state.calls.find? (·.callee = callee)

def hasTransition (state : State) (input : String) : Bool :=
  (state.transition? input).isSome

def hasCall (state : State) (callee : String) : Bool :=
  (state.call? callee).isSome

/-- The state behind the terminal transition on a symbol or, failing that, behind the call of it. -/
def next? (state : State) (symbol : String) : Option Nat :=
  (state.transition? symbol).map (·.target) <|> (state.call? symbol).map (·.target)

/-- The states that the moves of a state lead to. -/
def targets (state : State) : List Nat :=
  state.transitions.map (·.target) ++ state.calls.map (·.target) ++
    state.epsilon.toList.map (·.target) ++ state.alternate.toList.map (·.target)

/-- Puts the actions that build a tree on the terminal transitions and the calls. -/
def withTreeActions (state : State) : State :=
  { state with
    transitions := state.transitions.map fun transition =>
      { transition with action := some .leaf }
    calls := state.calls.map fun call =>
      { call with before := some .descend, after := some .ascend } }

@[simp] theorem targets_withTreeActions (state : State) :
    state.withTreeActions.targets = state.targets := by
  simp [targets, withTreeActions, Function.comp_def]

theorem transition?_withTreeActions (state : State) (input : String) :
    state.withTreeActions.transition? input =
      (state.transition? input).map fun transition => { transition with action := some .leaf } := by
  rw [transition?, withTreeActions, List.find?_map]
  rfl

end State

structure Automaton where
  name : String
  states : List State
  size_pos : 0 < states.length
  targets_lt : ∀ state ∈ states, ∀ target ∈ state.targets, target < states.length

namespace Automaton

/-- The name of the first state unless another is given. -/
def initialName : String := "Initial"

/-- An automaton with one state and no moves. -/
def single (name : String) (initial : String := initialName) : Automaton where
  name := name
  states := [{ name := initial }]
  size_pos := by simp
  targets_lt := by simp [State.targets]

instance : Inhabited Automaton := ⟨single ""⟩

def size (automaton : Automaton) : Nat := automaton.states.length

/-- The state with an index. An index beyond the last state stands for a state without moves. -/
def state (automaton : Automaton) (index : Nat) : State :=
  automaton.states[index]?.getD { name := "" }

def index? (automaton : Automaton) (name : String) : Option Nat :=
  automaton.states.findIdx? (·.name = name)

/-! ### Growing an automaton -/

/-- Adds a state unless one with that name exists. -/
def addState (automaton : Automaton) (name : String) : Automaton :=
  if (automaton.index? name).isSome then automaton
  else
    { name := automaton.name
      states := automaton.states ++ [{ name }]
      size_pos := by simp
      targets_lt := by
        intro state hstate target htarget
        rw [List.length_append]
        rcases List.mem_append.mp hstate with hold | hnew
        · exact Nat.lt_add_right _ (automaton.targets_lt state hold target htarget)
        · rw [List.mem_singleton.mp hnew] at htarget
          cases htarget }

/-- Changes one state in such a way that its moves still lead to states of the automaton. -/
def update (automaton : Automaton) (index : Nat) (change : State → State)
    (htargets : ∀ state, ∀ target ∈ (change state).targets,
      target ∈ state.targets ∨ target < automaton.size) : Automaton where
  name := automaton.name
  states := automaton.states.modify index change
  size_pos := by simpa using automaton.size_pos
  targets_lt := by
    intro state hstate target htarget
    rw [List.length_modify]
    obtain ⟨place, hplace, rfl⟩ := List.getElem_of_mem hstate
    rw [List.length_modify] at hplace
    have hold := automaton.targets_lt automaton.states[place] (List.getElem_mem hplace)
    rw [List.getElem_modify] at htarget
    split at htarget
    · exact (htargets _ target htarget).elim (hold target) id
    · exact hold target htarget

def setKind (automaton : Automaton) (index : Nat) (kind : StateKind) : Automaton :=
  automaton.update index (fun state => { state with kind }) fun _ _ htarget => .inl htarget

/-- Adds a terminal transition to its source. A transition that leads nowhere is not added. -/
def addTransition (automaton : Automaton) (transition : Transition) : Automaton :=
  if hinside : transition.target < automaton.size then
    automaton.update transition.source
      (fun state => { state with transitions := state.transitions ++ [transition] })
      (by
        intro state target htarget
        simp only [State.targets, List.map_append, List.mem_append] at htarget ⊢
        grind)
  else automaton

/-- Adds a call to its source. A call that leads nowhere is not added. -/
def addCall (automaton : Automaton) (call : Call) : Automaton :=
  if hinside : call.target < automaton.size then
    automaton.update call.source (fun state => { state with calls := state.calls ++ [call] })
      (by
        intro state target htarget
        simp only [State.targets, List.map_append, List.mem_append] at htarget ⊢
        grind)
  else automaton

/-- Sets the epsilon move of a state in place of the one before. -/
def setEpsilon (automaton : Automaton) (source target : Nat) (action : Option Action := none) :
    Automaton :=
  if hinside : target < automaton.size then
    automaton.update source
      (fun state => { state with epsilon := some (.epsilon source target action) })
      (by
        intro state other hother
        simp only [State.targets, List.mem_append] at hother ⊢
        simp only [Option.toList_some, List.map_cons, List.map_nil, List.mem_singleton,
          Transition.epsilon] at hother
        grind)
  else automaton

/-- Sets the alternate move of a state in place of the one before. -/
def setAlternate (automaton : Automaton) (source target : Nat) (action : Option Action := none) :
    Automaton :=
  if hinside : target < automaton.size then
    automaton.update source
      (fun state => { state with alternate := some (.alternate source target action) })
      (by
        intro state other hother
        simp only [State.targets, List.mem_append] at hother ⊢
        simp only [Option.toList_some, List.map_cons, List.map_nil, List.mem_singleton,
          Transition.alternate] at hother
        grind)
  else automaton

/-- Puts the actions that build a tree on every terminal transition and every call. -/
def withTreeActions (automaton : Automaton) : Automaton where
  name := automaton.name
  states := automaton.states.map State.withTreeActions
  size_pos := by simpa using automaton.size_pos
  targets_lt := by
    intro state hstate target htarget
    obtain ⟨old, hold, rfl⟩ := List.mem_map.mp hstate
    rw [List.length_map]
    exact automaton.targets_lt old hold target (by simpa using htarget)

/-! ### Lemmas -/

theorem state_mem {automaton : Automaton} {index : Nat} (h : index < automaton.size) :
    automaton.state index ∈ automaton.states := by
  have hindex : index < automaton.states.length := h
  simp [state, List.getElem?_eq_getElem hindex]

/-- Every move from a state of an automaton leads to a state of it. -/
theorem target_lt_size (automaton : Automaton) {index target : Nat}
    (htarget : target ∈ (automaton.state index).targets) : target < automaton.size := by
  by_cases h : index < automaton.size
  · exact automaton.targets_lt _ (state_mem h) target htarget
  · have hbeyond : automaton.states.length ≤ index := Nat.le_of_not_lt h
    simp [state, List.getElem?_eq_none hbeyond, State.targets] at htarget

end Automaton

end TransitionNetwork
