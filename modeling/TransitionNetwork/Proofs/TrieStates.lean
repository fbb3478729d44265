import TransitionNetwork.Grammar.Compile
import TransitionNetwork.Proofs.GrammarDerivation
import Mathlib.Logic.Function.Basic

/-! What the states of a compiled machine stand for. Each state of a trie but the final and the error
state stands for the symbols on the way to it from the root. `Spells` says how the moves of a machine fit
these words: a terminal or a call adds its symbol, the epsilon move leads to the final state from the end
of a rule, and every alternate leads to the error state. -/

namespace TransitionNetwork

namespace State

theorem target_mem_of_transition {state : State} {transition : Transition}
    (h : transition ∈ state.transitions) : transition.target ∈ state.targets := by
  simp only [targets, List.append_assoc]
  exact List.mem_append_left _ (List.mem_map_of_mem h)

theorem target_mem_of_call {state : State} {call : Call} (h : call ∈ state.calls) :
    call.target ∈ state.targets := by
  simp only [targets, List.append_assoc]
  exact List.mem_append_right _ (List.mem_append_left _ (List.mem_map_of_mem h))

theorem target_mem_of_epsilon {state : State} {epsilon : Transition}
    (h : state.epsilon = some epsilon) : epsilon.target ∈ state.targets := by
  simp [targets, h]

theorem target_mem_of_alternate {state : State} {alternate : Transition}
    (h : state.alternate = some alternate) : alternate.target ∈ state.targets := by
  simp [targets, h]

end State

namespace Automaton

/-! ### Edits keep the name and, but for a new state, the size -/

@[simp] theorem name_addState (automaton : Automaton) (name : String) :
    (automaton.addState name).name = automaton.name := by
  rw [addState]
  split <;> rfl

@[simp] theorem name_addTransition (automaton : Automaton) (transition : Transition) :
    (automaton.addTransition transition).name = automaton.name := by
  rw [addTransition]
  split <;> rfl

@[simp] theorem name_addCall (automaton : Automaton) (call : Call) :
    (automaton.addCall call).name = automaton.name := by
  rw [addCall]
  split <;> rfl

@[simp] theorem name_setEpsilon (automaton : Automaton) (source target : Nat)
    (action : Option Action) : (automaton.setEpsilon source target action).name = automaton.name := by
  rw [setEpsilon]
  split <;> rfl

@[simp] theorem name_setAlternate (automaton : Automaton) (source target : Nat)
    (action : Option Action) :
    (automaton.setAlternate source target action).name = automaton.name := by
  rw [setAlternate]
  split <;> rfl

@[simp] theorem size_update (automaton : Automaton) (index : Nat) (change : State → State)
    (htargets : ∀ state, ∀ target ∈ (change state).targets,
      target ∈ state.targets ∨ target < automaton.size) :
    (automaton.update index change htargets).size = automaton.size := by
  rw [size, size, update, List.length_modify]

@[simp] theorem size_addTransition (automaton : Automaton) (transition : Transition) :
    (automaton.addTransition transition).size = automaton.size := by
  rw [addTransition]
  split
  · exact size_update ..
  · rfl

@[simp] theorem size_addCall (automaton : Automaton) (call : Call) :
    (automaton.addCall call).size = automaton.size := by
  rw [addCall]
  split
  · exact size_update ..
  · rfl

@[simp] theorem size_setEpsilon (automaton : Automaton) (source target : Nat)
    (action : Option Action) : (automaton.setEpsilon source target action).size = automaton.size := by
  rw [setEpsilon]
  split
  · exact size_update ..
  · rfl

@[simp] theorem size_setAlternate (automaton : Automaton) (source target : Nat)
    (action : Option Action) :
    (automaton.setAlternate source target action).size = automaton.size := by
  rw [setAlternate]
  split
  · exact size_update ..
  · rfl

/-! ### States after an edit -/

theorem state_update (automaton : Automaton) {index : Nat} (hindex : index < automaton.size)
    (change : State → State)
    (htargets : ∀ state, ∀ target ∈ (change state).targets,
      target ∈ state.targets ∨ target < automaton.size) (other : Nat) :
    (automaton.update index change htargets).state other =
      if other = index then change (automaton.state index) else automaton.state other := by
  have hbound : index < automaton.states.length := hindex
  rw [state, update, List.getElem?_modify]
  by_cases h : other = index
  · subst h
    simp [state, List.getElem?_eq_getElem hbound]
  · simp [h, Ne.symm h, state]

theorem state_of_size_le {automaton : Automaton} {index : Nat} (h : automaton.size ≤ index) :
    automaton.state index = { name := "" } := by
  rw [state, List.getElem?_eq_none h, Option.getD_none]

theorem index?_eq_none {automaton : Automaton} {name : String}
    (hfresh : ∀ index < automaton.size, (automaton.state index).name ≠ name) :
    automaton.index? name = none := by
  apply List.findIdx?_eq_none_iff.mpr
  intro state hstate
  obtain ⟨index, hindex, rfl⟩ := List.getElem_of_mem hstate
  have hne := hfresh index hindex
  rw [Automaton.state, List.getElem?_eq_getElem hindex] at hne
  exact decide_eq_false hne

/-- A name that no state has is added as the last state. -/
theorem states_addState {automaton : Automaton} {name : String}
    (hfresh : ∀ index < automaton.size, (automaton.state index).name ≠ name) :
    (automaton.addState name).states = automaton.states ++ [{ name := name }] := by
  rw [addState, index?_eq_none hfresh, if_neg (by simp)]

theorem size_addState {automaton : Automaton} {name : String}
    (hfresh : ∀ index < automaton.size, (automaton.state index).name ≠ name) :
    (automaton.addState name).size = automaton.size + 1 := by
  rw [size, states_addState hfresh, List.length_append, List.length_singleton, size]

theorem state_addState {automaton : Automaton} {name : String}
    (hfresh : ∀ index < automaton.size, (automaton.state index).name ≠ name) (index : Nat) :
    (automaton.addState name).state index =
      if index = automaton.size then { name := name } else automaton.state index := by
  rw [state, states_addState hfresh]
  rcases Nat.lt_trichotomy index automaton.size with h | h | h
  · have hbound : index < automaton.states.length := h
    rw [if_neg (Nat.ne_of_lt h), List.getElem?_append_left hbound, state]
  · subst h
    simp [size]
  · rw [if_neg (Nat.ne_of_gt h), state_of_size_le (Nat.le_of_lt h), List.getElem?_eq_none]
    · rfl
    · rw [List.length_append, List.length_singleton]
      exact h

theorem index?_addState {automaton : Automaton} {name : String}
    (hfresh : ∀ index < automaton.size, (automaton.state index).name ≠ name) :
    (automaton.addState name).index? name = some automaton.size := by
  have hnone : automaton.states.findIdx? (fun state => state.name = name) = none :=
    index?_eq_none hfresh
  rw [index?, states_addState hfresh, List.findIdx?_append, hnone]
  simp [size]

end Automaton

namespace Trie

/-! ### Names of machines and of states -/

theorem name_addFresh (automaton : Automaton) (symbol : String) :
    (addFresh automaton symbol).1.name = automaton.name := by
  rw [addFresh, Automaton.name_addState]

theorem name_extend (automaton : Automaton) (source : Nat) (symbol : Symbol) :
    (extend automaton source symbol).1.name = automaton.name := by
  cases symbol with
  | terminal name =>
      rw [extend]
      split
      · rfl
      · exact (Automaton.name_setAlternate ..).trans
          ((Automaton.name_addTransition ..).trans (name_addFresh ..))
  | nonterminal name =>
      rw [extend]
      split
      · rfl
      · exact (Automaton.name_addCall ..).trans (name_addFresh ..)
  | epsilon => exact Automaton.name_setEpsilon ..

theorem name_addRule (automaton : Automaton) (rule : Rule) :
    (addRule automaton rule).name = automaton.name := by
  have hfold : ∀ (symbols : List Symbol) (state : Automaton × Nat),
      (symbols.foldl (fun state symbol => extend state.1 state.2 symbol) state).1.name =
        state.1.name := by
    intro symbols
    induction symbols with
    | nil => exact fun _ => rfl
    | cons symbol symbols ih => exact fun _ => (ih _).trans (name_extend ..)
  rw [addRule]
  dsimp only
  split
  · exact hfold rule.elements _
  · exact (Automaton.name_setEpsilon ..).trans (hfold rule.elements _)

theorem toList_freshName (automaton : Automaton) (symbol : String) :
    (freshName automaton symbol).toList =
      "State".toList ++ (Nat.toDigits 10 (automaton.size - 2) ++ '_' :: symbol.toList) := by
  simp [freshName, toString]

/-- The number in the name of a state can be read off the name. -/
theorem digits_injective {left right : Nat} {rest rest' : List Char}
    (h : Nat.toDigits 10 left ++ '_' :: rest = Nat.toDigits 10 right ++ '_' :: rest') :
    left = right := by
  have htake : ∀ (number : Nat) (rest : List Char),
      (Nat.toDigits 10 number ++ '_' :: rest).takeWhile Char.isDigit = Nat.toDigits 10 number := by
    intro number rest
    rw [List.takeWhile_append_of_pos]
    · simp
    · intro digit hdigit
      exact Nat.isDigit_of_mem_toDigits (by decide) (by decide) hdigit
  have hdigits := congrArg (List.takeWhile Char.isDigit) h
  rw [htake, htake] at hdigits
  have hvalue := congrArg (fun digits => Nat.ofDigitChars 10 digits 0) hdigits
  rwa [Nat.ofDigitChars_toDigits (by decide) (by decide),
    Nat.ofDigitChars_toDigits (by decide) (by decide)] at hvalue

/-! ### Words of states -/

/-- How a state fits the words: `word` gives the symbols on the way to each state. -/
structure Reads (rules : List Rule) (word : Nat → List Symbol) (index : Nat) (state : State) :
    Prop where
  kind_eq : state.kind = .normal
  transition : ∀ transition ∈ state.transitions, ∃ name, transition.conditions = [name] ∧
    transition.action = some .leaf ∧ error < transition.target ∧
    word transition.target = word index ++ [.terminal name]
  call : ∀ call ∈ state.calls, call.before = some .descend ∧ call.after = some .ascend ∧
    error < call.target ∧ word call.target = word index ++ [.nonterminal call.callee]
  /-- A rule ends here, or one with an epsilon element anywhere was joined to the root. -/
  epsilon : ∀ epsilon ∈ state.epsilon, epsilon.target = final ∧ epsilon.action = none ∧
    ∃ rule ∈ rules, rule.body = word index ∨ index = root ∧ .epsilon ∈ rule.elements
  alternate : ∀ alternate ∈ state.alternate, alternate.target = error

/-- A state that is neither the final nor the error state. -/
def Inside (automaton : Automaton) (index : Nat) : Prop :=
  index < automaton.size ∧ index ≠ final ∧ index ≠ error

/-- The machine of some rules, with the symbols on the way to each of its states. -/
structure Spells (automaton : Automaton) (rules : List Rule) (word : Nat → List Symbol) : Prop where
  error_lt : error < automaton.size
  root_name : (automaton.state root).name = Automaton.initialName
  final_eq : automaton.state final = { name := finalName, kind := .accept }
  error_eq : automaton.state error =
    { name := errorName, kind := .error, alternate := some (.alternate error error) }
  name_eq : ∀ index < automaton.size, error < index → ∃ symbol : String,
    (automaton.state index).name.toList =
      "State".toList ++ (Nat.toDigits 10 (index - 2) ++ '_' :: symbol.toList)
  word_root : word root = []
  reads : ∀ index, index ≠ final → index ≠ error → Reads rules word index (automaton.state index)

variable {automaton : Automaton} {rules : List Rule} {word : Nat → List Symbol}

theorem reads_blank (rules : List Rule) (word : Nat → List Symbol) (index : Nat) (name : String) :
    Reads rules word index { name := name } := by
  constructor <;> simp

theorem spells_empty (nonterminal : String) (rules : List Rule) :
    Spells (empty nonterminal) rules fun _ => [] := by
  have hstates : (empty nonterminal).states = [{ name := Automaton.initialName },
      { name := finalName, kind := .accept },
      { name := errorName, kind := .error, alternate := some (.alternate error error) }] := rfl
  constructor
  · rw [Automaton.size, hstates]
    decide
  · rw [Automaton.state, hstates]
    rfl
  · rw [Automaton.state, hstates]
    rfl
  · rw [Automaton.state, hstates]
    rfl
  · intro index hlt hindex
    rw [Automaton.size, hstates] at hlt
    simp only [List.length_cons, List.length_nil, error] at hlt hindex
    omega
  · rfl
  · intro index hfinal herror
    rw [Automaton.state, hstates]
    rcases index with _ | _ | _ | index
    · exact reads_blank _ _ _ _
    · exact absurd rfl hfinal
    · exact absurd rfl herror
    · exact reads_blank _ _ _ _

/-- The words matter only at a state itself and where its moves lead. -/
theorem Reads.congr {word' : Nat → List Symbol} {index : Nat} {state : State}
    (h : Reads rules word index state) (hself : word' index = word index)
    (htargets : ∀ target ∈ state.targets, word' target = word target) :
    Reads rules word' index state := by
  refine ⟨h.kind_eq, ?_, ?_, ?_, h.alternate⟩
  · intro transition htransition
    rw [hself, htargets _ (State.target_mem_of_transition htransition)]
    exact h.transition transition htransition
  · intro call hcall
    rw [hself, htargets _ (State.target_mem_of_call hcall)]
    exact h.call call hcall
  · rw [hself]
    exact h.epsilon

theorem Reads.of_transition? {index : Nat} {state : State} (h : Reads rules word index state)
    {name : String} {transition : Transition} (hfound : state.transition? name = some transition) :
    transition.action = some .leaf ∧ error < transition.target ∧
      word transition.target = word index ++ [.terminal name] := by
  obtain ⟨other, hconditions, haction, htarget, hword⟩ :=
    h.transition transition (List.mem_of_find?_eq_some hfound)
  have haccepts := List.find?_some hfound
  rw [Transition.accepts, hconditions, List.contains_eq_mem, decide_eq_true_eq,
    List.mem_singleton] at haccepts
  rw [haccepts]
  exact ⟨haction, htarget, hword⟩

theorem Reads.of_call? {index : Nat} {state : State} (h : Reads rules word index state)
    {callee : String} {call : Call} (hfound : state.call? callee = some call) :
    call.after = some .ascend ∧ error < call.target ∧
      word call.target = word index ++ [.nonterminal callee] := by
  obtain ⟨-, hafter, htarget, hword⟩ := h.call call (List.mem_of_find?_eq_some hfound)
  have hcallee := List.find?_some hfound
  rw [decide_eq_true_eq] at hcallee
  rw [← hcallee]
  exact ⟨hafter, htarget, hword⟩

namespace Spells

theorem name_ne_freshName (h : Spells automaton rules word) (symbol : String) :
    ∀ index < automaton.size, (automaton.state index).name ≠ freshName automaton symbol := by
  intro index hindex hname
  have hlist := congrArg String.toList hname
  rw [toList_freshName] at hlist
  have hpos := h.error_lt
  rcases Nat.lt_or_ge error index with hlt | hle
  · obtain ⟨other, hother⟩ := h.name_eq index hindex hlt
    rw [hother, List.append_cancel_left_eq] at hlist
    have hnumber := digits_injective hlist
    simp only [error] at hlt hpos
    omega
  · -- the three names before that do not begin with the letter of the others
    rcases index with _ | _ | _ | index
    · have hroot : (automaton.state 0).name = _ := h.root_name
      rw [hroot] at hlist
      cases hlist
    · have hfinal : automaton.state (0 + 1) = _ := h.final_eq
      rw [hfinal] at hlist
      cases hlist
    · have herror : automaton.state (0 + 1 + 1) = _ := h.error_eq
      rw [herror] at hlist
      cases hlist
    · exact absurd hle (by simp [error])

/-- A change of one state between the root and the ends of rules. -/
theorem update (h : Spells automaton rules word) {index : Nat} (hindex : Inside automaton index)
    {change : State → State}
    (htargets : ∀ state, ∀ target ∈ (change state).targets,
      target ∈ state.targets ∨ target < automaton.size)
    (hname : ∀ state, (change state).name = state.name)
    (hreads : Reads rules word index (change (automaton.state index))) :
    Spells (automaton.update index change htargets) rules word := by
  have hstate := automaton.state_update hindex.1 change htargets
  have hnames : ∀ other, ((automaton.update index change htargets).state other).name =
      (automaton.state other).name := by
    intro other
    rw [hstate]
    split
    · next heq => rw [hname, heq]
    · rfl
  constructor
  · rw [Automaton.size_update]
    exact h.error_lt
  · rw [hnames, h.root_name]
  · rw [hstate, if_neg hindex.2.1.symm, h.final_eq]
  · rw [hstate, if_neg hindex.2.2.symm, h.error_eq]
  · intro other hother
    rw [Automaton.size_update] at hother
    rw [hnames]
    exact h.name_eq other hother
  · exact h.word_root
  · intro other hfinal herror
    rw [hstate]
    split
    · next heq =>
      rw [heq]
      exact hreads
    · exact h.reads other hfinal herror

/-- A new state gets the word that leads to it. -/
theorem addFresh (h : Spells automaton rules word) (name : String) (symbols : List Symbol) :
    Spells (Trie.addFresh automaton name).1 rules
      (Function.update word automaton.size symbols) := by
  have hfresh := h.name_ne_freshName name
  have hstate := Automaton.state_addState hfresh
  have hpos := h.error_lt
  have hother : ∀ index < automaton.size,
      Function.update word automaton.size symbols index = word index := fun index hindex =>
    Function.update_of_ne (Nat.ne_of_lt hindex) _ _
  simp only [error] at hpos
  rw [Trie.addFresh]
  constructor
  · rw [Automaton.size_addState hfresh, error]
    omega
  · rw [hstate, if_neg (by rw [root]; omega), h.root_name]
  · rw [hstate, if_neg (by rw [final]; omega), h.final_eq]
  · rw [hstate, if_neg (by rw [error]; omega), h.error_eq]
  · intro index hindex herror
    rw [Automaton.size_addState hfresh] at hindex
    rw [hstate]
    split
    · next heq =>
      subst heq
      exact ⟨name, toList_freshName automaton name⟩
    · next hne => exact h.name_eq index (by omega) herror
  · rw [hother root (by rw [root]; omega), h.word_root]
  · intro index hfinal herror
    rw [hstate]
    split
    · exact reads_blank _ _ _ _
    · rcases Nat.lt_or_ge index automaton.size with hlt | hle
      · exact (h.reads index hfinal herror).congr (hother index hlt) fun target htarget =>
          hother target (automaton.target_lt_size htarget)
      · rw [Automaton.state_of_size_le hle]
        exact reads_blank _ _ _ _

theorem addFresh_target (h : Spells automaton rules word) (name : String) :
    (Trie.addFresh automaton name).2 = automaton.size := by
  rw [Trie.addFresh, Automaton.index?_addState (h.name_ne_freshName name), Option.getD_some]

theorem size_addFresh (h : Spells automaton rules word) (name : String) :
    (Trie.addFresh automaton name).1.size = automaton.size + 1 :=
  Automaton.size_addState (h.name_ne_freshName name)

variable {source : Nat}

theorem addTransition (h : Spells automaton rules word) (hsource : Inside automaton source)
    {target : Nat} {name : String} (htarget : error < target)
    (hword : word target = word source ++ [.terminal name]) :
    Spells (automaton.addTransition
      { source, target, conditions := [name], action := some .leaf }) rules word := by
  rw [Automaton.addTransition]
  split
  · have hreads := h.reads source hsource.2.1 hsource.2.2
    refine h.update hsource _ (fun _ => rfl)
      ⟨hreads.kind_eq, ?_, hreads.call, hreads.epsilon, hreads.alternate⟩
    intro transition htransition
    rcases List.mem_append.mp htransition with hold | hnew
    · exact hreads.transition transition hold
    · rw [List.mem_singleton.mp hnew]
      exact ⟨name, rfl, rfl, htarget, hword⟩
  · exact h

theorem addCall (h : Spells automaton rules word) (hsource : Inside automaton source)
    {target : Nat} {callee : String} (htarget : error < target)
    (hword : word target = word source ++ [.nonterminal callee]) :
    Spells (automaton.addCall
      { source, target, callee, before := some .descend, after := some .ascend }) rules word := by
  rw [Automaton.addCall]
  split
  · have hreads := h.reads source hsource.2.1 hsource.2.2
    refine h.update hsource _ (fun _ => rfl)
      ⟨hreads.kind_eq, hreads.transition, ?_, hreads.epsilon, hreads.alternate⟩
    intro call hcall
    rcases List.mem_append.mp hcall with hold | hnew
    · exact hreads.call call hold
    · rw [List.mem_singleton.mp hnew]
      exact ⟨rfl, rfl, htarget, hword⟩
  · exact h

theorem setEpsilon (h : Spells automaton rules word) (hsource : Inside automaton source)
    (hrule : ∃ rule ∈ rules, rule.body = word source ∨ source = root ∧ .epsilon ∈ rule.elements) :
    Spells (automaton.setEpsilon source final) rules word := by
  rw [Automaton.setEpsilon]
  split
  · have hreads := h.reads source hsource.2.1 hsource.2.2
    refine h.update hsource _ (fun _ => rfl)
      ⟨hreads.kind_eq, hreads.transition, hreads.call, ?_, hreads.alternate⟩
    rintro epsilon ⟨⟩
    exact ⟨rfl, rfl, hrule⟩
  · exact h

theorem setAlternate (h : Spells automaton rules word) (hsource : Inside automaton source) :
    Spells (automaton.setAlternate source error) rules word := by
  rw [Automaton.setAlternate]
  split
  · have hreads := h.reads source hsource.2.1 hsource.2.2
    refine h.update hsource _ (fun _ => rfl)
      ⟨hreads.kind_eq, hreads.transition, hreads.call, hreads.epsilon, ?_⟩
    rintro alternate ⟨⟩
    rfl
  · exact h

/-! ### Building the machine -/

theorem inside_root (h : Spells automaton rules word) : Inside automaton root :=
  ⟨Nat.zero_lt_of_lt h.error_lt, by decide, by decide⟩

theorem inside_of_lt {target : Nat} (hsize : target < automaton.size) (htarget : error < target) :
    Inside automaton target := by
  simp only [Inside, error, final] at *
  omega

/-- A new state behind a source, with the word that leads to it. -/
theorem grow (h : Spells automaton rules word) (hsource : Inside automaton source) (name : String)
    (symbol : Symbol) :
    ∃ word', Spells (Trie.addFresh automaton name).1 rules word' ∧
      Inside (Trie.addFresh automaton name).1 source ∧
      Inside (Trie.addFresh automaton name).1 (Trie.addFresh automaton name).2 ∧
      error < (Trie.addFresh automaton name).2 ∧ word' source = word source ∧
      word' (Trie.addFresh automaton name).2 = word source ++ [symbol] := by
  refine ⟨_, h.addFresh name (word source ++ [symbol]), ⟨?_, hsource.2⟩, inside_of_lt ?_ ?_, ?_,
    Function.update_of_ne (Nat.ne_of_lt hsource.1) _ _, ?_⟩
  · rw [h.size_addFresh]
    exact Nat.lt_succ_of_lt hsource.1
  · rw [h.size_addFresh, h.addFresh_target]
    exact Nat.lt_succ_self _
  · rw [h.addFresh_target]
    exact h.error_lt
  · rw [h.addFresh_target]
    exact h.error_lt
  · rw [h.addFresh_target, Function.update_self]

/-- Going on by one symbol leads to the state for it; an epsilon element leads nowhere. -/
theorem extend (h : Spells automaton rules word) (hsource : Inside automaton source)
    {symbol : Symbol} (hepsilon : symbol = .epsilon → ∃ rule ∈ rules, .epsilon ∈ rule.elements) :
    ∃ word', Spells (Trie.extend automaton source symbol).1 rules word' ∧
      Inside (Trie.extend automaton source symbol).1 (Trie.extend automaton source symbol).2 ∧
      word' (Trie.extend automaton source symbol).2 =
        word source ++ [symbol].filter (· ≠ .epsilon) := by
  have hreads := h.reads source hsource.2.1 hsource.2.2
  cases symbol with
  | terminal name =>
      rw [Trie.extend]
      cases hfound : (automaton.state source).transition? name with
      | some transition =>
          obtain ⟨-, htarget, hword⟩ := hreads.of_transition? hfound
          have hmem := State.target_mem_of_transition (List.mem_of_find?_eq_some hfound)
          exact ⟨word, h, inside_of_lt (automaton.target_lt_size hmem) htarget, hword⟩
      | none =>
          obtain ⟨word', hgrown, hsource', hinside, htarget, hold, hnew⟩ :=
            h.grow hsource name (.terminal name)
          refine ⟨word', (hgrown.addTransition hsource' htarget (by rw [hnew, hold])).setAlternate ?_,
            ?_, hnew⟩
          · simpa only [Inside, Automaton.size_addTransition] using hsource'
          · simpa only [Inside, Automaton.size_setAlternate, Automaton.size_addTransition]
              using hinside
  | nonterminal name =>
      rw [Trie.extend]
      cases hfound : (automaton.state source).call? name with
      | some call =>
          obtain ⟨-, htarget, hword⟩ := hreads.of_call? hfound
          have hmem := State.target_mem_of_call (List.mem_of_find?_eq_some hfound)
          exact ⟨word, h, inside_of_lt (automaton.target_lt_size hmem) htarget, hword⟩
      | none =>
          obtain ⟨word', hgrown, hsource', hinside, htarget, hold, hnew⟩ :=
            h.grow hsource name (.nonterminal name)
          refine ⟨word', hgrown.addCall hsource' htarget (by rw [hnew, hold]), ?_, hnew⟩
          simpa only [Inside, Automaton.size_addCall] using hinside
  | epsilon =>
      obtain ⟨rule, hrule, hmem⟩ := hepsilon rfl
      refine ⟨word, h.setEpsilon h.inside_root ⟨rule, hrule, .inr ⟨rfl, hmem⟩⟩, ?_, ?_⟩
      · simpa only [Trie.extend, Inside, Automaton.size_setEpsilon] using hsource
      · exact (List.append_nil _).symm

theorem foldl_extend (symbols : List Symbol) (h : Spells automaton rules word)
    (hsource : Inside automaton source)
    (hepsilon : .epsilon ∈ symbols → ∃ rule ∈ rules, .epsilon ∈ rule.elements) :
    let result := symbols.foldl (fun state symbol => Trie.extend state.1 state.2 symbol)
      (automaton, source)
    ∃ word', Spells result.1 rules word' ∧ Inside result.1 result.2 ∧
      word' result.2 = word source ++ symbols.filter (· ≠ .epsilon) := by
  induction symbols generalizing automaton source word with
  | nil => exact ⟨word, h, hsource, (List.append_nil _).symm⟩
  | cons symbol symbols ih =>
      obtain ⟨word', hextended, hinside, hword⟩ :=
        h.extend hsource fun heq => hepsilon (heq ▸ List.mem_cons_self)
      obtain ⟨word'', hrest, hinside', hword'⟩ :=
        ih hextended hinside fun hmem => hepsilon (List.mem_cons_of_mem _ hmem)
      refine ⟨word'', hrest, hinside', ?_⟩
      rw [List.foldl_cons, hword', hword, List.append_assoc, ← List.filter_append]
      rfl

/-- The end of a right-hand side spells the body of the rule. -/
theorem addRule (h : Spells automaton rules word) {rule : Rule} (hrule : rule ∈ rules) :
    ∃ word', Spells (Trie.addRule automaton rule) rules word' := by
  obtain ⟨word', hextended, hinside, hword⟩ :=
    h.foldl_extend rule.elements h.inside_root fun hmem => ⟨rule, hrule, hmem⟩
  rw [h.word_root, List.nil_append] at hword
  rw [Trie.addRule]
  dsimp only [extendAll]
  split
  · exact ⟨word', hextended⟩
  · exact ⟨word', hextended.setEpsilon hinside ⟨rule, hrule, .inl hword.symm⟩⟩

end Spells

end Trie

@[simp] theorem Grammar.name_machine (grammar : Grammar) (nonterminal : String) :
    (grammar.machine nonterminal).name = nonterminal := by
  have hfold : ∀ (rules : List Rule) (automaton : Automaton),
      (rules.foldl Trie.addRule automaton).name = automaton.name := by
    intro rules
    induction rules with
    | nil => exact fun _ => rfl
    | cons rule rules ih => exact fun _ => (ih _).trans (Trie.name_addRule ..)
  exact (hfold _ _).trans rfl

/-- Every state of the machine of a nonterminal spells the beginning of one of its rules. -/
theorem Grammar.spells_machine (grammar : Grammar) (nonterminal : String) :
    ∃ word, Trie.Spells (grammar.machine nonterminal) (grammar.rulesFor nonterminal) word := by
  have hfold : ∀ (added : List Rule) (automaton : Automaton) (word : Nat → List Symbol),
      (∀ rule ∈ added, rule ∈ grammar.rulesFor nonterminal) →
      Trie.Spells automaton (grammar.rulesFor nonterminal) word →
      ∃ word', Trie.Spells (added.foldl Trie.addRule automaton) (grammar.rulesFor nonterminal)
        word' := by
    intro added
    induction added with
    | nil => exact fun _ word _ h => ⟨word, h⟩
    | cons rule added ih =>
        intro automaton word hadded h
        obtain ⟨word', h'⟩ := h.addRule (hadded rule List.mem_cons_self)
        exact ih _ word' (fun other hother => hadded other (List.mem_cons_of_mem _ hother)) h'
  exact hfold _ _ _ (fun _ hrule => hrule) (Trie.spells_empty nonterminal _)

end TransitionNetwork
