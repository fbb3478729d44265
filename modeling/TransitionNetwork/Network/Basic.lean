import TransitionNetwork.Automaton.Basic

/-!
Networks: named automata that call each other, one of them to start with.

A network is valid by its type: the names differ, every call has a machine to go to and no state has
both a terminal transition and a call on one symbol.
-/

namespace TransitionNetwork

/-- Why machines make no network. -/
inductive NetworkError
  | noMachines
  | unknownMachine (machine : String)
  | duplicateMachine (machine : String)
  | danglingCall (machine state callee : String)
  | conditionCollision (machine state symbol : String)
  deriving DecidableEq, Repr

namespace NetworkError

def code : NetworkError → String
  | noMachines => "NO_MACHINES"
  | unknownMachine _ => "UNKNOWN_MACHINE"
  | duplicateMachine _ => "DUPLICATE_MACHINE"
  | danglingCall .. => "DANGLING_CALL"
  | conditionCollision .. => "CONDITION_COLLISION"

def message : NetworkError → String
  | noMachines => "machine set is empty"
  | unknownMachine machine => "machine not found: " ++ machine
  | duplicateMachine machine => "duplicate machine name: " ++ machine
  | danglingCall machine state callee =>
    "machine '" ++ machine ++ "' calls unknown machine '" ++ callee ++ "' from state '" ++ state ++ "'"
  | conditionCollision machine state symbol =>
    "condition collision in " ++ machine ++ ":" ++ state ++ ": '" ++ symbol ++
      "' is both a terminal and a machine call"

end NetworkError

structure Network where
  machines : List Automaton
  start : Automaton
  start_mem : start ∈ machines
  names_nodup : (machines.map (·.name)).Nodup
  callee_mem : ∀ machine ∈ machines, ∀ state ∈ machine.states, ∀ call ∈ state.calls,
    call.callee ∈ machines.map (·.name)
  callee_apart : ∀ machine ∈ machines, ∀ state ∈ machine.states, ∀ call ∈ state.calls,
    state.transition? call.callee = none

namespace Network

/-- The first name that stands twice, `seen` being the names before. -/
def duplicate? (seen : List String) : List String → Option String
  | [] => none
  | name :: names => if name ∈ seen then some name else duplicate? (name :: seen) names

theorem nodup_of_duplicate?_eq_none {seen names : List String} (h : duplicate? seen names = none) :
    names.Nodup ∧ ∀ name ∈ names, name ∉ seen := by
  induction names generalizing seen with
  | nil => simp
  | cons name names ih =>
      rw [duplicate?] at h
      split at h
      · cases h
      · next hnew =>
        obtain ⟨hnodup, hapart⟩ := ih h
        refine ⟨List.nodup_cons.mpr ⟨fun hname => ?_, hnodup⟩, fun other hother => ?_⟩
        · exact hapart name hname List.mem_cons_self
        · rcases List.mem_cons.mp hother with rfl | hother
          · exact hnew
          · exact fun hseen => hapart other hother (List.mem_cons_of_mem _ hseen)

/-- What is wrong with a call: its machine is missing, or its symbol is a terminal there. -/
def callError? (names : List String) (machine : Automaton) (state : State) (call : Call) :
    Option NetworkError :=
  if call.callee ∉ names then some (.danglingCall machine.name state.name call.callee)
  else if state.hasTransition call.callee then
    some (.conditionCollision machine.name state.name call.callee)
  else none

/-- The first wrong call, machine by machine and state by state. -/
def firstCallError? (machines : List Automaton) : Option NetworkError :=
  machines.findSome? fun machine =>
    machine.states.findSome? fun state =>
      state.calls.findSome? (callError? (machines.map (·.name)) machine state)

theorem callError?_eq_none {machines : List Automaton} (h : firstCallError? machines = none)
    {machine : Automaton} (hmachine : machine ∈ machines)
    {state : State} (hstate : state ∈ machine.states) {call : Call} (hcall : call ∈ state.calls) :
    call.callee ∈ machines.map (·.name) ∧ state.transition? call.callee = none := by
  have hnone := List.findSome?_eq_none_iff.mp (List.findSome?_eq_none_iff.mp
    (List.findSome?_eq_none_iff.mp h machine hmachine) state hstate) call hcall
  rw [callError?] at hnone
  split at hnone
  · cases hnone
  · next hknown =>
    split at hnone
    · cases hnone
    · next hapart =>
      exact ⟨Decidable.not_not.mp hknown, by simpa [State.hasTransition] using hapart⟩

/-- The network of some machines. Without a start the first machine starts. -/
def ofMachines (machines : List Automaton) (start : Option String := none) :
    Except NetworkError Network :=
  match machines.head? with
  | none => .error .noMachines
  | some first =>
    match hduplicates : duplicate? [] (machines.map (·.name)) with
    | some name => .error (.duplicateMachine name)
    | none =>
      let startName := start.getD first.name
      match hfound : machines.find? (·.name = startName) with
      | none => .error (.unknownMachine startName)
      | some machine =>
        match hcalls : firstCallError? machines with
        | some error => .error error
        | none =>
          .ok {
            machines
            start := machine
            start_mem := List.mem_of_find?_eq_some hfound
            names_nodup := (nodup_of_duplicate?_eq_none hduplicates).1
            callee_mem := fun _ hmachine _ hstate _ hcall =>
              (callError?_eq_none hcalls hmachine hstate hcall).1
            callee_apart := fun _ hmachine _ hstate _ hcall =>
              (callError?_eq_none hcalls hmachine hstate hcall).2 }

def machine? (network : Network) (name : String) : Option Automaton :=
  network.machines.find? (·.name = name)

/-- The number of states of all machines together. -/
def stateCount (network : Network) : Nat :=
  network.machines.foldr (fun machine count => machine.size + count) 0

/-- Puts the actions that build a tree on every machine. -/
def withTreeActions (network : Network) : Network where
  machines := network.machines.map Automaton.withTreeActions
  start := network.start.withTreeActions
  start_mem := List.mem_map_of_mem network.start_mem
  names_nodup := by
    simpa [Function.comp_def, Automaton.withTreeActions] using network.names_nodup
  callee_mem := by
    intro _ hmachine' _ hstate' _ hcall'
    obtain ⟨machine, hmachine, rfl⟩ := List.mem_map.mp hmachine'
    obtain ⟨state, hstate, rfl⟩ := List.mem_map.mp hstate'
    obtain ⟨call, hcall, rfl⟩ := List.mem_map.mp hcall'
    simpa [Function.comp_def, Automaton.withTreeActions] using
      network.callee_mem machine hmachine state hstate call hcall
  callee_apart := by
    intro _ hmachine' _ hstate' _ hcall'
    obtain ⟨machine, hmachine, rfl⟩ := List.mem_map.mp hmachine'
    obtain ⟨state, hstate, rfl⟩ := List.mem_map.mp hstate'
    obtain ⟨call, hcall, rfl⟩ := List.mem_map.mp hcall'
    rw [State.transition?_withTreeActions]
    simpa using network.callee_apart machine hmachine state hstate call hcall

end Network

end TransitionNetwork
