import TransitionNetwork.Proofs.CallChain
import TransitionNetwork.Proofs.SkippedSymbols

/-! Actions do not influence a run. Without its actions a network has the same states, the same moves and the
same lookahead, and every operation of a session commutes with taking the actions away. Networks that are
equal up to their actions therefore run alike whatever the actions are and whatever is done with them: both
runs are, up to actions, the run of one network that has none. -/

namespace TransitionNetwork

/-! ### Taking the actions away -/

def Transition.withoutAction (transition : Transition) : Transition :=
  { transition with action := none }

def Call.withoutActions (call : Call) : Call :=
  { call with before := none, after := none }

namespace State

def withoutActions (state : State) : State :=
  { state with
    transitions := state.transitions.map Transition.withoutAction
    calls := state.calls.map Call.withoutActions
    epsilon := state.epsilon.map Transition.withoutAction
    alternate := state.alternate.map Transition.withoutAction }

@[simp] theorem targets_withoutActions (state : State) :
    state.withoutActions.targets = state.targets := by
  simp only [targets, withoutActions, List.map_map, Option.toList_map]
  rfl

@[simp] theorem transition?_withoutActions (state : State) (input : String) :
    state.withoutActions.transition? input =
      (state.transition? input).map Transition.withoutAction := by
  rw [transition?, withoutActions, List.find?_map]
  rfl

@[simp] theorem call?_withoutActions (state : State) (callee : String) :
    state.withoutActions.call? callee = (state.call? callee).map Call.withoutActions := by
  rw [call?, withoutActions, List.find?_map]
  rfl

end State

namespace Automaton

def withoutActions (automaton : Automaton) : Automaton where
  name := automaton.name
  states := automaton.states.map State.withoutActions
  size_pos := by simpa using automaton.size_pos
  targets_lt := by
    intro state hstate target htarget
    obtain ⟨old, hold, rfl⟩ := List.mem_map.mp hstate
    rw [State.targets_withoutActions] at htarget
    rw [List.length_map]
    exact automaton.targets_lt old hold target htarget

@[simp] theorem size_withoutActions (automaton : Automaton) :
    automaton.withoutActions.size = automaton.size := by
  simp [size, withoutActions]

@[simp] theorem state_withoutActions (automaton : Automaton) (index : Nat) :
    automaton.withoutActions.state index = (automaton.state index).withoutActions := by
  simp only [state, withoutActions, List.getElem?_map]
  cases automaton.states[index]? <;> rfl

end Automaton

namespace Network

def withoutActions (network : Network) : Network where
  machines := network.machines.map Automaton.withoutActions
  start := network.start.withoutActions
  start_mem := List.mem_map_of_mem network.start_mem
  names_nodup := by
    simpa [Function.comp_def, Automaton.withoutActions] using network.names_nodup
  callee_mem := by
    intro _ hmachine' _ hstate' _ hcall'
    obtain ⟨machine, hmachine, rfl⟩ := List.mem_map.mp hmachine'
    obtain ⟨state, hstate, rfl⟩ := List.mem_map.mp hstate'
    obtain ⟨call, hcall, rfl⟩ := List.mem_map.mp hcall'
    simpa [Function.comp_def, Automaton.withoutActions, Call.withoutActions] using
      network.callee_mem machine hmachine state hstate call hcall
  callee_apart := by
    intro _ hmachine' _ hstate' _ hcall'
    obtain ⟨machine, hmachine, rfl⟩ := List.mem_map.mp hmachine'
    obtain ⟨state, hstate, rfl⟩ := List.mem_map.mp hstate'
    obtain ⟨call, hcall, rfl⟩ := List.mem_map.mp hcall'
    rw [State.transition?_withoutActions, Option.map_eq_none_iff]
    exact network.callee_apart machine hmachine state hstate call hcall

/-- The actions that build a tree are taken away like any others. -/
theorem withoutActions_withTreeActions (network : Network) :
    network.withTreeActions.withoutActions = network.withoutActions := by
  have hstate : ∀ state : State, state.withTreeActions.withoutActions = state.withoutActions := by
    intro state
    simp only [State.withoutActions, State.withTreeActions, List.map_map]
    rfl
  have hmachine : ∀ machine : Automaton,
      machine.withTreeActions.withoutActions = machine.withoutActions := by
    intro machine
    simp only [Automaton.withoutActions, Automaton.withTreeActions, List.map_map]
    congr 1
    exact List.map_congr_left fun state _ => hstate state
  simp only [withoutActions, withTreeActions, List.map_map, hmachine]
  congr 1
  exact List.map_congr_left fun machine _ => hmachine machine

/-! ### The lookahead takes no notice of actions -/

variable (network : Network)

@[simp] theorem machine?_withoutActions (name : String) :
    network.withoutActions.machine? name =
      (network.machine? name).map Automaton.withoutActions := by
  rw [machine?, withoutActions, List.find?_map]
  rfl

@[simp] theorem places_withoutActions : network.withoutActions.places = network.places := by
  simp only [places, withoutActions, List.flatMap_map, Automaton.size_withoutActions]
  rfl

@[simp] theorem stateAt_withoutActions (place : Place) :
    network.withoutActions.stateAt place = (network.stateAt place).withoutActions := by
  simp only [stateAt, machine?_withoutActions]
  cases network.machine? place.1 with
  | none => rfl
  | some machine => exact machine.state_withoutActions place.2

@[simp] theorem successors_withoutActions :
    network.withoutActions.successors = network.successors := by
  funext place
  simp only [successors, stateAt_withoutActions, State.withoutActions, List.map_map,
    Option.toList_map]
  rfl

@[simp] theorem welcomes_withoutActions (symbol : Option String) :
    network.withoutActions.welcomes symbol = network.welcomes symbol := by
  funext place
  have htransition : (network.stateAt place).withoutActions.hasTransition =
      (network.stateAt place).hasTransition := by
    funext input
    rw [State.hasTransition, State.transition?_withoutActions, Option.isSome_map,
      State.hasTransition]
  simp only [welcomes, stateAt_withoutActions, htransition]
  rfl

theorem eligibleCall?_withoutActions (symbol : Option String) (calls : List Call)
    (seen : List Place) :
    network.withoutActions.eligibleCall? symbol (calls.map Call.withoutActions) seen =
      (network.eligibleCall? symbol calls seen).map Call.withoutActions := by
  induction calls generalizing seen with
  | nil => rfl
  | cons call calls ih =>
      have hstart : network.withoutActions.canStart symbol call.withoutActions.callee seen =
          network.canStart symbol call.callee seen := by
        simp only [canStart, successors_withoutActions, welcomes_withoutActions,
          places_withoutActions]
        rfl
      rw [List.map_cons, eligibleCall?, eligibleCall?, hstart]
      rcases network.canStart symbol call.callee seen with ⟨found, visited⟩
      cases found with
      | true => rfl
      | false => exact ih visited

end Network

/-! ### One machine -/

namespace Cursor

def withoutActions (cursor : Cursor) : Cursor :=
  ⟨cursor.automaton.withoutActions, cursor.state⟩

@[simp] theorem current_withoutActions (cursor : Cursor) :
    cursor.withoutActions.current = cursor.current.withoutActions :=
  cursor.automaton.state_withoutActions cursor.state

@[simp] theorem atAccept_withoutActions (cursor : Cursor) :
    cursor.withoutActions.atAccept = cursor.atAccept := by
  rw [atAccept, current_withoutActions]
  rfl

@[simp] theorem atError_withoutActions (cursor : Cursor) :
    cursor.withoutActions.atError = cursor.atError := by
  rw [atError, current_withoutActions]
  rfl

theorem applyWithin_withoutActions (input : String) (moves : Nat) (cursor : Cursor)
    (recorder : Unit) :
    cursor.withoutActions.applyWithin input moves recorder =
      Prod.map id (Prod.map withoutActions id) (cursor.applyWithin input moves recorder) := by
  have htransition (cursor : Cursor) : cursor.withoutActions.current.transition? input =
      (cursor.current.transition? input).map Transition.withoutAction := by
    rw [current_withoutActions, State.transition?_withoutActions]
  have hepsilon (cursor : Cursor) : cursor.withoutActions.current.epsilon =
      cursor.current.epsilon.map Transition.withoutAction := by
    rw [current_withoutActions, State.withoutActions]
  have halternate (cursor : Cursor) : cursor.withoutActions.current.alternate =
      cursor.current.alternate.map Transition.withoutAction := by
    rw [current_withoutActions, State.withoutActions]
  fun_induction applyWithin input moves cursor recorder with
  | case1 moves cursor recorder transition h =>
      rw [applyWithin.eq_def, htransition, h]
      rfl
  | case2 cursor recorder h epsilon h' =>
      rw [applyWithin.eq_def, htransition, h, hepsilon, h']
      rfl
  | case3 cursor recorder h epsilon h' moves _ _ hmoved ih =>
      cases hmoved
      rw [applyWithin.eq_def, htransition, h, hepsilon, h']
      exact ih
  | case4 moves cursor recorder h h' alternate h'' =>
      rw [applyWithin.eq_def, htransition, h, hepsilon, h', halternate, h'']
      rfl
  | case5 moves cursor recorder h h' h'' =>
      rw [applyWithin.eq_def, htransition, h, hepsilon, h', halternate, h'']
      rfl

theorem apply_withoutActions (cursor : Cursor) (input : String) (recorder : Unit) :
    cursor.withoutActions.apply input recorder =
      Prod.map id (Prod.map withoutActions id) (cursor.apply input recorder) := by
  have hsize : cursor.withoutActions.automaton.size = cursor.automaton.size :=
    cursor.automaton.size_withoutActions
  rw [apply, hsize, applyWithin_withoutActions, apply]

theorem stepEpsilon_withoutActions (cursor : Cursor) (recorder : Unit) :
    cursor.withoutActions.stepEpsilon recorder =
      Prod.map withoutActions id (cursor.stepEpsilon recorder) := by
  rw [stepEpsilon, stepEpsilon, current_withoutActions, State.withoutActions]
  cases cursor.current.epsilon <;> rfl

theorem returnFrom_withoutActions (cursor : Cursor) (callee : String) (recorder : Unit) :
    cursor.withoutActions.returnFrom callee recorder =
      Prod.map withoutActions id (cursor.returnFrom callee recorder) := by
  rw [returnFrom, returnFrom, current_withoutActions, State.call?_withoutActions]
  cases cursor.current.call? callee <;> rfl

end Cursor

/-! ### Sessions -/

namespace Session

def withoutActions (session : Session) : Session where
  places := session.places
  machine := session.machine.withoutActions
  frames := session.frames.map Cursor.withoutActions

@[simp] theorem active_withoutActions (session : Session) :
    session.withoutActions.active = session.active.withoutActions := rfl

@[simp] theorem atError_withoutActions (session : Session) :
    session.withoutActions.atError = session.atError := by
  rw [atError, active_withoutActions, Cursor.atError_withoutActions, atError]

@[simp] theorem isAccepted_withoutActions (session : Session) :
    session.withoutActions.isAccepted = session.isAccepted := by
  rw [isAccepted, active_withoutActions, Cursor.atAccept_withoutActions, isAccepted, withoutActions,
    List.isEmpty_map]

variable (network : Network) (limits : Limits)

theorem enterCall?_withoutActions (symbol : Option String) (session : Session) (recorder : Unit) :
    session.withoutActions.enterCall? network.withoutActions limits symbol recorder =
      (session.enterCall? network limits symbol recorder).map (Prod.map withoutActions id) := by
  have heligible : network.withoutActions.eligibleCall? symbol
      session.withoutActions.active.current.calls =
        (network.eligibleCall? symbol session.active.current.calls).map Call.withoutActions := by
    rw [active_withoutActions, Cursor.current_withoutActions]
    exact network.eligibleCall?_withoutActions symbol _ []
  have hdepth : session.withoutActions.depth = session.depth := List.length_map _
  rw [enterCall?, enterCall?, heligible, hdepth]
  cases network.eligibleCall? symbol session.active.current.calls with
  | none => rfl
  | some call =>
      simp only [Option.map_some]
      by_cases hfull : limits.maxCallDepth ≤ session.depth
      · rw [if_pos hfull, if_pos hfull]
        rfl
      · have hcallee : network.withoutActions.machine? call.withoutActions.callee =
            (network.machine? call.callee).map Automaton.withoutActions :=
          network.machine?_withoutActions call.callee
        rw [if_neg hfull, if_neg hfull, hcallee]
        cases network.machine? call.callee <;> rfl

theorem leaveCall_withoutActions (session : Session) (recorder : Unit) :
    session.withoutActions.leaveCall recorder =
      Prod.map withoutActions id (session.leaveCall recorder) := by
  have hframes : session.withoutActions.frames = session.frames.map Cursor.withoutActions := rfl
  rw [leaveCall, leaveCall, hframes]
  cases hcases : session.frames with
  | nil => rfl
  | cons frame frames =>
      simp only [List.map_cons, active_withoutActions, Cursor.atAccept_withoutActions]
      by_cases haccept : session.active.atAccept = true
      · rw [if_pos haccept, if_pos haccept, Cursor.returnFrom_withoutActions]
        rfl
      · rw [if_neg haccept, if_neg haccept]
        rfl

theorem consume_withoutActions (symbol : String) (attempts calls : Nat) (session : Session)
    (recorder : Unit) :
    session.withoutActions.consume network.withoutActions limits symbol attempts calls recorder =
      Prod.map id (Prod.map withoutActions id)
        (session.consume network limits symbol attempts calls recorder) := by
  fun_induction session.consume network limits symbol attempts calls recorder with
  | case1 attempts calls session recorder hbounds entered recorded henter after _ hleave ih =>
      have henter' := enterCall?_withoutActions network limits (some symbol) session recorder
      rw [henter, Option.map_some] at henter'
      have hleave' := leaveCall_withoutActions entered recorded
      rw [hleave] at hleave'
      rw [← atError_withoutActions] at hbounds
      rw [consume_of_enterCall? hbounds henter']
      show ((entered.withoutActions.leaveCall recorded).1.consume _ _ _ _ _ _) = _
      rw [hleave']
      exact ih
  | case2 attempts calls session recorder hbounds henter active recorded after _ hleave happly =>
      have henter' := enterCall?_withoutActions network limits (some symbol) session recorder
      rw [henter, Option.map_none] at henter'
      have happly' := session.active.apply_withoutActions symbol recorder
      rw [happly] at happly'
      have hleave' := leaveCall_withoutActions (session.control active) recorded
      rw [hleave] at hleave'
      rw [← atError_withoutActions] at hbounds
      rw [consume_of_apply hbounds henter' happly', id, if_pos rfl]
      show (true, (session.control active).withoutActions.leaveCall recorded) = _
      rw [hleave']
      rfl
  | case3 attempts calls session recorder hbounds henter consumed active recorded happly after _ hleave
      hrejected ih =>
      have henter' := enterCall?_withoutActions network limits (some symbol) session recorder
      rw [henter, Option.map_none] at henter'
      have happly' := session.active.apply_withoutActions symbol recorder
      rw [happly] at happly'
      have hleave' := leaveCall_withoutActions (session.control active) recorded
      rw [hleave] at hleave'
      rw [← atError_withoutActions] at hbounds
      rw [consume_of_apply hbounds henter' happly', id, if_neg hrejected]
      show ((session.control active).withoutActions.leaveCall recorded).1.consume _ _ _ _ _ _ = _
      rw [hleave']
      exact ih
  | case4 attempts calls session recorder hbounds =>
      rw [← atError_withoutActions] at hbounds
      rw [consume, if_neg hbounds]
      rfl

theorem input_withoutActions (symbol : String) (session : Session) (recorder : Unit) :
    session.withoutActions.input network.withoutActions limits symbol recorder =
      Prod.map id (Prod.map withoutActions id) (session.input network limits symbol recorder) := by
  have hconsume' := consume_withoutActions network limits symbol 0 0 session recorder
  rcases hconsume : session.consume network limits symbol 0 0 recorder with
    ⟨consumed, after, recorded⟩
  rw [hconsume] at hconsume'
  cases consumed with
  | true =>
      rw [input_of_consumed hconsume, input_of_consumed hconsume']
      rfl
  | false =>
      rw [input_of_rejected hconsume, input_of_rejected hconsume']
      rfl

theorem settleStep_withoutActions (session : Session) (recorder : Unit) :
    session.withoutActions.settleStep network.withoutActions limits recorder =
      Prod.map withoutActions id (session.settleStep network limits recorder) := by
  have hepsilon := session.active.stepEpsilon_withoutActions recorder
  rcases hstep : session.active.stepEpsilon recorder with ⟨active, recorded⟩
  rw [hstep] at hepsilon
  have hleave : (session.withoutActions.control active.withoutActions).leaveCall recorded =
      Prod.map withoutActions id ((session.control active).leaveCall recorded) :=
    leaveCall_withoutActions (session.control active) recorded
  rw [settleStep, settleStep, active_withoutActions, hepsilon, hstep]
  dsimp only [Prod.map, id]
  rw [hleave]
  dsimp only [Prod.map, id]
  rw [enterCall?_withoutActions]
  cases ((session.control active).leaveCall recorded).1.enterCall? network limits none
    ((session.control active).leaveCall recorded).2 <;> rfl

theorem settle_withoutActions (steps : Nat) (session : Session) (recorder : Unit) :
    session.withoutActions.settle network.withoutActions limits steps recorder =
      Prod.map withoutActions id (session.settle network limits steps recorder) := by
  induction steps generalizing session recorder with
  | zero => rfl
  | succ steps ih =>
      have hunsettled : session.withoutActions.unsettled network.withoutActions =
          session.unsettled network := by
        have heligible := network.eligibleCall?_withoutActions none session.active.current.calls []
        have hempty : session.withoutActions.frames.isEmpty = session.frames.isEmpty :=
          List.isEmpty_map
        rw [unsettled, unsettled, active_withoutActions, Cursor.current_withoutActions,
          Cursor.atAccept_withoutActions, hempty]
        simp only [State.withoutActions, heligible, Option.isSome_map]
      rw [settle, settle, hunsettled]
      by_cases hgo : session.unsettled network = true
      · rw [if_pos hgo, if_pos hgo, settleStep_withoutActions]
        exact ih _ _
      · rw [if_neg hgo, if_neg hgo]
        rfl

theorem execute_withoutActions (symbols : List String) (session : Session) (recorder : Unit) :
    session.withoutActions.execute network.withoutActions limits symbols recorder =
      Prod.map withoutActions id (session.execute network limits symbols recorder) := by
  rw [execute, execute]
  induction symbols generalizing session recorder with
  | nil => exact settle_withoutActions network limits _ session recorder
  | cons symbol symbols ih =>
      rw [List.foldl_cons, List.foldl_cons]
      dsimp only
      rw [input_withoutActions]
      exact ih _ _

/-! ### Runs of commands -/

theorem obey_withoutActions (session : Session) (recorder : Unit) (command : Command) :
    session.withoutActions.obey network.withoutActions limits recorder command =
      Prod.map id (Prod.map withoutActions id)
        (session.obey network limits recorder command) := by
  cases command with
  | input symbol =>
      rw [obey, obey, input_withoutActions]
      rfl
  | finish => exact congrArg (none, ·) (settle_withoutActions network limits _ session recorder)
  | execute symbols =>
      rw [obey, obey, execute_withoutActions]
      dsimp only [Prod.map]
      rw [isAccepted_withoutActions]
      rfl
  | restart => rfl

variable {σ τ : Type} [Recorder σ] [Recorder τ]

/-- What a session answers and where it goes is the same for every recorder. -/
theorem obey_recorder (session : Session) (recorder : σ) (recorder' : τ) (command : Command) :
    (session.obey network limits recorder command).1 =
        (session.obey network limits recorder' command).1 ∧
      (session.obey network limits recorder command).2.1 =
        (session.obey network limits recorder' command).2.1 := by
  cases command with
  | input symbol =>
      obtain ⟨hanswer, hafter⟩ := input_recorder network limits symbol session recorder recorder'
      exact ⟨congrArg some hanswer, hafter⟩
  | finish => exact ⟨rfl, settle_recorder network limits _ session recorder recorder'⟩
  | execute symbols =>
      have hafter : (session.execute network limits symbols recorder).1 =
          (session.execute network limits symbols recorder').1 := by
        rw [execute_eq_inputAll, execute_eq_inputAll,
          (inputAll_recorder network limits symbols session recorder recorder').2]
        exact settle_recorder network limits _ _ _ _
      exact ⟨congrArg (fun after : Session => some after.isAccepted) hafter, hafter⟩
  | restart => exact ⟨rfl, rfl⟩

end Session

/-- Where a cursor stands: its machine, and its state by number and by name. -/
def Cursor.standing (cursor : Cursor) : String × Nat × String :=
  (cursor.machine, cursor.state, cursor.current.name)

theorem Cursor.standing_withoutActions (cursor : Cursor) :
    cursor.withoutActions.standing = cursor.standing := by
  rw [standing, current_withoutActions]
  rfl

/-- Where the machine in control stands, and behind it those that wait, the innermost first. -/
def Configuration.standing {σ : Type} (configuration : Configuration σ) :
    List (String × Nat × String) :=
  (configuration.active :: configuration.frames).map Cursor.standing

namespace Session

variable {σ τ : Type} [Recorder σ] [Recorder τ]

/-- The answers to a series of commands, each with where the session stands after it. -/
def course (network : Network) (limits : Limits) (session : Session) (recorder : σ)
    (commands : List Command) : List (Option Bool × List (String × Nat × String)) :=
  (session.responses network limits recorder commands).map fun response =>
    (response.1, response.2.standing)

/-- A session takes the course that it takes without actions, whatever is done with the actions. -/
theorem course_withoutActions (network : Network) (limits : Limits) (commands : List Command)
    (session : Session) (recorder : σ) :
    session.course network limits recorder commands =
      session.withoutActions.course network.withoutActions limits () commands := by
  induction commands generalizing session recorder with
  | nil => rfl
  | cons command commands ih =>
      obtain ⟨hanswer, hafter⟩ := obey_recorder network limits session recorder () command
      have hbare := obey_withoutActions network limits session () command
      rcases hobey : session.obey network limits recorder command with ⟨answer, after, recorded⟩
      rcases hobey' : session.obey network limits () command with ⟨answer', after', recorded'⟩
      rw [hobey, hobey'] at hanswer hafter
      rw [hobey'] at hbare
      change answer = answer' at hanswer
      change after = after' at hafter
      subst hanswer hafter
      have hframes : after.withoutActions.frames.map Cursor.standing =
          after.frames.map Cursor.standing := by
        rw [withoutActions, List.map_map]
        exact List.map_congr_left fun frame _ => frame.standing_withoutActions
      have hstanding : (after.configuration recorded).standing =
          (after.withoutActions.configuration recorded').standing :=
        congrArg₂ List.cons after.active.standing_withoutActions.symm hframes.symm
      rw [course, course, responses, responses, hobey, hbare]
      exact congrArg₂ List.cons (Prod.ext rfl hstanding) (ih after recorded)

/-- Two networks that are equal up to their actions take the same course through any commands: they give
the same answers, and after each command the same machine is in control at the same state, over the same
frames. What the recorders do with the actions has no say in it. -/
theorem course_eq_of_withoutActions_eq {left right : Network}
    (h : left.withoutActions = right.withoutActions) (limits : Limits) (recorder : σ)
    (recorder' : τ) (commands : List Command) :
    (start left).course left limits recorder commands =
      (start right).course right limits recorder' commands := by
  have hstart : (start left).withoutActions = (start right).withoutActions := congrArg start h
  calc (start left).course left limits recorder commands
      = (start left).withoutActions.course left.withoutActions limits () commands :=
        course_withoutActions ..
    _ = (start right).withoutActions.course right.withoutActions limits () commands := by
        rw [hstart, h]
    _ = (start right).course right limits recorder' commands := (course_withoutActions ..).symm

/-- Two brackets and a word with a symbol between them that is not consumed, and the sentence once more
from the beginning. -/
def visit : List Command :=
  [.input "(", .input "z", .input "(", .input "x", .finish, .restart, .execute ["(", "x"]]

/-- The machine of brackets takes the same course without actions and with those that build a tree, although
a tree is built. -/
theorem nested_course_visit :
    nested.withoutActions = nested.withTreeActions.withoutActions ∧
      ((start nested.withTreeActions).course nested.withTreeActions {}
        ((Builder.start "A").setToken ⟨"w", "w", []⟩) visit).map (·.1) =
          [some true, some false, some true, some true, none, none, some true] ∧
      ((start nested.withTreeActions).responses nested.withTreeActions {}
        ((Builder.start "A").setToken ⟨"w", "w", []⟩) visit).map (·.2.recorder.tree.nodes.length) =
          [2, 2, 4, 6, 6, 6, 9] ∧
      (start nested).course nested {} () visit =
        (start nested.withTreeActions).course nested.withTreeActions {}
          ((Builder.start "A").setToken ⟨"w", "w", []⟩) visit := by
  have hsame := (nested.withoutActions_withTreeActions).symm
  exact ⟨hsame, by cbv, by cbv, course_eq_of_withoutActions_eq hsame {} () _ visit⟩

end Session

end TransitionNetwork
