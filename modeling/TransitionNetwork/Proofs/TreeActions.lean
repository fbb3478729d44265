import TransitionNetwork.Proofs.CompiledNetwork

/-! Networks that build trees. In such a network a terminal appends a leaf, a call opens a node and
closes it again, and epsilon and alternate moves leave the tree alone. Compiled networks are of this
kind, since every edit of the compiler keeps the states so; and so is a network put together by hand,
once the tree actions are installed, unless it has actions on epsilon or alternate moves. -/

namespace TransitionNetwork

/-! ### States -/

namespace State

/-- Terminals append leaves, calls open and close nodes, other moves do nothing. -/
structure BuildsTree (state : State) : Prop where
  transition : ∀ transition ∈ state.transitions, transition.action = some .leaf
  call : ∀ call ∈ state.calls, call.before = some .descend ∧ call.after = some .ascend
  epsilon : ∀ epsilon ∈ state.epsilon, epsilon.action = none
  alternate : ∀ alternate ∈ state.alternate, alternate.action = none

/-- No action on the moves that are neither terminals nor calls. -/
def Quiet (state : State) : Prop :=
  (∀ epsilon ∈ state.epsilon, epsilon.action = none) ∧
    ∀ alternate ∈ state.alternate, alternate.action = none

instance (state : State) : Decidable state.Quiet :=
  inferInstanceAs (Decidable (_ ∧ _))

theorem buildsTree_blank (name : String) : BuildsTree { name := name } := by
  constructor <;> simp

theorem Quiet.buildsTree_withTreeActions {state : State} (h : state.Quiet) :
    state.withTreeActions.BuildsTree := by
  constructor
  · intro transition htransition
    obtain ⟨old, -, rfl⟩ := List.mem_map.mp htransition
    rfl
  · intro call hcall
    obtain ⟨old, -, rfl⟩ := List.mem_map.mp hcall
    exact ⟨rfl, rfl⟩
  · exact h.1
  · exact h.2

end State

/-! ### Automata -/

namespace Automaton

def BuildsTrees (automaton : Automaton) : Prop :=
  ∀ state ∈ automaton.states, state.BuildsTree

theorem BuildsTrees.state {automaton : Automaton} (h : automaton.BuildsTrees) (index : Nat) :
    (automaton.state index).BuildsTree := by
  by_cases hindex : index < automaton.size
  · exact h _ (state_mem hindex)
  · rw [state_of_size_le (Nat.le_of_not_lt hindex)]
    exact State.buildsTree_blank ""

namespace BuildsTrees

variable {automaton : Automaton} (h : automaton.BuildsTrees)
include h

theorem addState (name : String) : (automaton.addState name).BuildsTrees := by
  rw [Automaton.addState]
  split
  · exact h
  · intro state hstate
    rcases List.mem_append.mp hstate with hold | hnew
    · exact h state hold
    · rw [List.mem_singleton.mp hnew]
      exact State.buildsTree_blank name

theorem update {index : Nat} {change : State → State}
    (htargets : ∀ state, ∀ target ∈ (change state).targets,
      target ∈ state.targets ∨ target < automaton.size)
    (hchange : ∀ state, state.BuildsTree → (change state).BuildsTree) :
    (automaton.update index change htargets).BuildsTrees := by
  intro state hstate
  obtain ⟨other, hother, rfl⟩ := List.getElem_of_mem hstate
  have hbound : other < automaton.states.length := by
    simpa [Automaton.update] using hother
  have hold := h automaton.states[other] (List.getElem_mem hbound)
  simp only [Automaton.update, List.getElem_modify]
  split
  · exact hchange _ hold
  · exact hold

theorem setKind (index : Nat) (kind : StateKind) : (automaton.setKind index kind).BuildsTrees :=
  h.update _ fun _ hstate => ⟨hstate.transition, hstate.call, hstate.epsilon, hstate.alternate⟩

theorem addTransition {transition : Transition} (haction : transition.action = some .leaf) :
    (automaton.addTransition transition).BuildsTrees := by
  rw [Automaton.addTransition]
  split
  · refine h.update _ fun state hstate => ⟨?_, hstate.call, hstate.epsilon, hstate.alternate⟩
    intro other hother
    rcases List.mem_append.mp hother with hold | hnew
    · exact hstate.transition other hold
    · rw [List.mem_singleton.mp hnew]
      exact haction
  · exact h

theorem addCall {call : Call} (hbefore : call.before = some .descend)
    (hafter : call.after = some .ascend) : (automaton.addCall call).BuildsTrees := by
  rw [Automaton.addCall]
  split
  · refine h.update _ fun state hstate =>
      ⟨hstate.transition, ?_, hstate.epsilon, hstate.alternate⟩
    intro other hother
    rcases List.mem_append.mp hother with hold | hnew
    · exact hstate.call other hold
    · rw [List.mem_singleton.mp hnew]
      exact ⟨hbefore, hafter⟩
  · exact h

theorem setEpsilon (source target : Nat) : (automaton.setEpsilon source target).BuildsTrees := by
  rw [Automaton.setEpsilon]
  split
  · refine h.update _ fun state hstate =>
      ⟨hstate.transition, hstate.call, ?_, hstate.alternate⟩
    rintro epsilon ⟨⟩
    rfl
  · exact h

theorem setAlternate (source target : Nat) :
    (automaton.setAlternate source target).BuildsTrees := by
  rw [Automaton.setAlternate]
  split
  · refine h.update _ fun state hstate =>
      ⟨hstate.transition, hstate.call, hstate.epsilon, ?_⟩
    rintro alternate ⟨⟩
    rfl
  · exact h

/-! ### The edits of the compiler -/

theorem extend (source : Nat) (symbol : Symbol) :
    (Trie.extend automaton source symbol).1.BuildsTrees := by
  cases symbol with
  | terminal name =>
      rw [Trie.extend]
      split
      · exact h
      · exact (BuildsTrees.addTransition (h.addState _) rfl).setAlternate _ _
  | nonterminal name =>
      rw [Trie.extend]
      split
      · exact h
      · exact BuildsTrees.addCall (h.addState _) rfl rfl
  | epsilon => exact h.setEpsilon _ _

theorem foldl_extend (symbols : List Symbol) (source : Nat) :
    (symbols.foldl (fun state symbol => Trie.extend state.1 state.2 symbol)
      (automaton, source)).1.BuildsTrees := by
  induction symbols generalizing automaton source with
  | nil => exact h
  | cons symbol symbols ih => exact ih (h.extend source symbol) _

theorem addRule (rule : Rule) : (Trie.addRule automaton rule).BuildsTrees := by
  have hextended := h.foldl_extend rule.elements Trie.root
  rw [Trie.addRule]
  dsimp only
  split
  · exact hextended
  · exact hextended.setEpsilon _ _

end BuildsTrees

end Automaton

theorem Trie.buildsTrees_empty (nonterminal : String) : (Trie.empty nonterminal).BuildsTrees := by
  have hsingle : (Automaton.single nonterminal).BuildsTrees := by
    intro state hstate
    rw [List.mem_singleton.mp hstate]
    exact State.buildsTree_blank _
  exact (((hsingle.addState _).setKind _ _).addState _ |>.setKind _ _).setAlternate _ _

theorem Grammar.buildsTrees_machine (grammar : Grammar) (nonterminal : String) :
    (grammar.machine nonterminal).BuildsTrees := by
  have hfold : ∀ (rules : List Rule) (automaton : Automaton), automaton.BuildsTrees →
      (rules.foldl Trie.addRule automaton).BuildsTrees := by
    intro rules
    induction rules with
    | nil => exact fun _ h => h
    | cons rule rules ih => exact fun _ h => ih _ (h.addRule rule)
  exact hfold _ _ (Trie.buildsTrees_empty nonterminal)

/-! ### Networks -/

namespace Network

def BuildsTrees (network : Network) : Prop :=
  ∀ machine ∈ network.machines, machine.BuildsTrees

/-- No action on epsilon and alternate moves. -/
def Quiet (network : Network) : Prop :=
  ∀ machine ∈ network.machines, ∀ state ∈ machine.states, state.Quiet

instance (network : Network) : Decidable network.Quiet :=
  inferInstanceAs (Decidable (∀ machine ∈ network.machines, ∀ state ∈ machine.states, state.Quiet))

theorem Quiet.buildsTrees_withTreeActions {network : Network} (h : network.Quiet) :
    network.withTreeActions.BuildsTrees := by
  intro _ hinstalled _ hchanged
  obtain ⟨machine, hmachine, rfl⟩ := List.mem_map.mp hinstalled
  obtain ⟨state, hstate, rfl⟩ := List.mem_map.mp hchanged
  exact (h machine hmachine state hstate).buildsTree_withTreeActions

end Network

theorem Grammar.Describes.buildsTrees {grammar : Grammar} {start : String} {network : Network}
    (h : grammar.Describes start network) : network.BuildsTrees := by
  intro machine hmachine
  rw [h.machine_eq machine hmachine]
  exact grammar.buildsTrees_machine _

end TransitionNetwork
