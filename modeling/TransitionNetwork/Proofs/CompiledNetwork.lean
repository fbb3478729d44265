import TransitionNetwork.Proofs.AnalyserRuns
import TransitionNetwork.Proofs.GrammarCheck
import TransitionNetwork.Proofs.TrieStates

/-! The network of a compiled grammar. A grammar that compiles has passed its check, and every machine
of its network is the machine of the nonterminal it is named after. A cursor in such a machine stands
inside the trie, at its end or at the error state; it accepts only at the end, and from the error state
no sentence is accepted any more. -/

namespace TransitionNetwork

/-- Only the states of an automaton have moves. -/
theorem Automaton.lt_size_of_target {automaton : Automaton} {index target : Nat}
    (h : target ∈ (automaton.state index).targets) : index < automaton.size := by
  by_contra hge
  rw [state_of_size_le (Nat.le_of_not_lt hge)] at h
  cases h

theorem Network.ofMachines_eq_ok {machines : List Automaton} {start : String} {network : Network}
    (h : ofMachines machines (some start) = .ok network) :
    network.machines = machines ∧ network.start.name = start := by
  rw [ofMachines] at h
  split at h
  · cases h
  · split at h
    · cases h
    · dsimp only at h
      split at h
      · cases h
      · next machine hfound =>
        split at h
        · cases h
        · cases h
          have hname := List.find?_some hfound
          rw [decide_eq_true_eq] at hname
          exact ⟨rfl, hname⟩

theorem Network.mem_of_machine? {network : Network} {name : String} {machine : Automaton}
    (h : network.machine? name = some machine) : machine ∈ network.machines ∧ machine.name = name := by
  have hname := List.find?_some h
  rw [decide_eq_true_eq] at hname
  exact ⟨List.mem_of_find?_eq_some h, hname⟩

theorem Network.mem_of_eligibleCall? {network : Network} {symbol : Option String} {calls : List Call}
    {seen : List Place} {call : Call} (h : network.eligibleCall? symbol calls seen = some call) :
    call ∈ calls := by
  induction calls generalizing seen with
  | nil => cases h
  | cons other calls ih =>
      rw [eligibleCall?] at h
      split at h
      · cases h
        exact List.mem_cons_self
      · exact List.mem_cons_of_mem _ (ih h)

/-- A network in which every machine is that of the nonterminal it is named after. -/
structure Grammar.Describes (grammar : Grammar) (start : String) (network : Network) : Prop where
  machine_eq : ∀ machine ∈ network.machines, machine = grammar.machine machine.name
  start_eq : network.start = grammar.machine start

theorem Grammar.describes_of_compile {grammar : Grammar} {compiled : GrammarNetwork}
    (h : grammar.compile = .ok compiled) :
    grammar.check = .ok compiled.start ∧ grammar.Describes compiled.start compiled.network := by
  rw [compile] at h
  split at h
  · cases h
  · next start hcheck =>
    split at h
    · cases h
    · next network hnetwork =>
      cases h
      obtain ⟨hmachines, hstart⟩ := Network.ofMachines_eq_ok hnetwork
      have hmachine : ∀ machine ∈ network.machines, machine = grammar.machine machine.name := by
        intro machine hmem
        rw [hmachines, machines] at hmem
        obtain ⟨name, -, rfl⟩ := List.mem_map.mp hmem
        rw [name_machine]
      refine ⟨hcheck, hmachine, ?_⟩
      rw [← hstart]
      exact hmachine _ network.start_mem

theorem Grammar.Describes.callee_eq {grammar : Grammar} {start : String} {network : Network}
    (h : grammar.Describes start network) {name : String} {callee : Automaton}
    (hcallee : network.machine? name = some callee) : callee = grammar.machine name := by
  obtain ⟨hmem, rfl⟩ := Network.mem_of_machine? hcallee
  exact h.machine_eq callee hmem

namespace Grammar

variable {grammar : Grammar} {nonterminal : String}

/-! ### Where a machine stands -/

/-- The symbols on the way to each state of the machine of a nonterminal. -/
noncomputable def word (grammar : Grammar) (nonterminal : String) : Nat → List Symbol :=
  Classical.choose (grammar.spells_machine nonterminal)

theorem spells_word (grammar : Grammar) (nonterminal : String) :
    Trie.Spells (grammar.machine nonterminal) (grammar.rulesFor nonterminal)
      (grammar.word nonterminal) :=
  Classical.choose_spec (grammar.spells_machine nonterminal)

/-- The cursor of a nonterminal at a state of its machine. -/
def cursor (grammar : Grammar) (nonterminal : String) (state : Nat) : Cursor :=
  ⟨grammar.machine nonterminal, state⟩

theorem reads_cursor {state : Nat} (hfinal : state ≠ Trie.final) (herror : state ≠ Trie.error) :
    Trie.Reads (grammar.rulesFor nonterminal) (grammar.word nonterminal) state
      (grammar.cursor nonterminal state).current :=
  (grammar.spells_word nonterminal).reads state hfinal herror

theorem current_final : (grammar.cursor nonterminal Trie.final).current =
    { name := Trie.finalName, kind := .accept } :=
  (grammar.spells_word nonterminal).final_eq

theorem current_error : (grammar.cursor nonterminal Trie.error).current =
    { name := Trie.errorName, kind := .error,
      alternate := some (.alternate Trie.error Trie.error) } :=
  (grammar.spells_word nonterminal).error_eq

theorem atAccept_cursor {state : Nat} :
    (grammar.cursor nonterminal state).atAccept = true ↔ state = Trie.final := by
  rw [Cursor.atAccept, State.isAccept, decide_eq_true_eq]
  constructor
  · intro haccept
    by_contra hfinal
    by_cases herror : state = Trie.error
    · rw [herror, current_error] at haccept
      cases haccept
    · rw [(reads_cursor hfinal herror).kind_eq] at haccept
      cases haccept
  · rintro rfl
    rw [current_final]

theorem atError_cursor {state : Nat} :
    (grammar.cursor nonterminal state).atError = true ↔ state = Trie.error := by
  rw [Cursor.atError, State.isError, decide_eq_true_eq]
  constructor
  · intro hkind
    by_contra herror
    by_cases hfinal : state = Trie.final
    · rw [hfinal, current_final] at hkind
      cases hkind
    · rw [(reads_cursor hfinal herror).kind_eq] at hkind
      cases hkind
  · rintro rfl
    rw [current_error]

/-! ### Where the moves of a machine lead -/

variable {cursor : Cursor}

/-- A cursor that has a move stands inside the trie or at the error state, which has an alternate only. -/
theorem reads_of_target (h : cursor.automaton = grammar.machine nonterminal) {target : Nat}
    (htarget : target ∈ cursor.current.targets) :
    Trie.Reads (grammar.rulesFor nonterminal) (grammar.word nonterminal) cursor.state
        cursor.current ∨
      cursor.current =
        { name := Trie.errorName, kind := .error,
          alternate := some (.alternate Trie.error Trie.error) } := by
  have hcursor : cursor = grammar.cursor nonterminal cursor.state := by
    rw [Grammar.cursor, ← h]
  by_cases hfinal : cursor.state = Trie.final
  · rw [hcursor, hfinal, current_final] at htarget
    cases htarget
  · by_cases herror : cursor.state = Trie.error
    · right
      rw [hcursor, herror]
      exact current_error
    · left
      rw [hcursor]
      exact reads_cursor hfinal herror

/-- A cursor that has any move but an alternate stands inside the trie. -/
theorem inside_of_move (h : cursor.automaton = grammar.machine nonterminal)
    (hlt : cursor.state < cursor.automaton.size)
    (hmove : cursor.current.transitions ≠ [] ∨ cursor.current.calls ≠ [] ∨
      cursor.current.epsilon ≠ none) :
    Trie.Inside (grammar.machine nonterminal) cursor.state := by
  obtain ⟨automaton, state⟩ := cursor
  subst h
  refine ⟨hlt, ?_, ?_⟩
  · rintro rfl
    have hcurrent : (⟨grammar.machine nonterminal, Trie.final⟩ : Cursor).current = _ := current_final
    rw [hcurrent] at hmove
    simp at hmove
  · rintro rfl
    have hcurrent : (⟨grammar.machine nonterminal, Trie.error⟩ : Cursor).current = _ := current_error
    rw [hcurrent] at hmove
    simp at hmove

theorem error_lt_of_call (h : cursor.automaton = grammar.machine nonterminal) {call : Call}
    (hcall : call ∈ cursor.current.calls) : Trie.error < call.target := by
  rcases reads_of_target h (State.target_mem_of_call hcall) with hreads | herror
  · exact (hreads.call call hcall).2.2.1
  · rw [herror] at hcall
    cases hcall

theorem error_lt_of_transition (h : cursor.automaton = grammar.machine nonterminal)
    {transition : Transition} (htransition : transition ∈ cursor.current.transitions) :
    Trie.error < transition.target := by
  rcases reads_of_target h (State.target_mem_of_transition htransition) with hreads | herror
  · obtain ⟨name, -, -, htarget, -⟩ := hreads.transition transition htransition
    exact htarget
  · rw [herror] at htransition
    cases htransition

theorem eq_final_of_epsilon (h : cursor.automaton = grammar.machine nonterminal)
    {epsilon : Transition} (hepsilon : cursor.current.epsilon = some epsilon) :
    epsilon.target = Trie.final := by
  rcases reads_of_target h (State.target_mem_of_epsilon hepsilon) with hreads | herror
  · exact (hreads.epsilon epsilon hepsilon).1
  · rw [herror] at hepsilon
    cases hepsilon

theorem eq_error_of_alternate (h : cursor.automaton = grammar.machine nonterminal)
    {alternate : Transition} (halternate : cursor.current.alternate = some alternate) :
    alternate.target = Trie.error := by
  rcases reads_of_target h (State.target_mem_of_alternate halternate) with hreads | herror
  · exact hreads.alternate alternate halternate
  · rw [herror] at halternate
    cases halternate
    rfl

theorem atError_of_ne {automaton : Automaton} (h : automaton = grammar.machine nonterminal)
    {state : Nat} (hstate : state ≠ Trie.error) : (⟨automaton, state⟩ : Cursor).atError = false := by
  rw [Bool.eq_false_iff, h]
  exact fun herror => hstate (atError_cursor.mp herror)

/-! ### The error state -/

/-- The machine in control is at its error state. -/
def Stuck {σ : Type} (grammar : Grammar) (configuration : Configuration σ) : Prop :=
  ∃ nonterminal, configuration.active = grammar.cursor nonterminal Trie.error

theorem Stuck.not_move {σ : Type} [Recorder σ] {network : Network} {limits : Limits}
    {symbol : Option String} {before after : Configuration σ} (h : grammar.Stuck before) :
    ¬ before.Move network limits symbol after := by
  obtain ⟨name, hactive⟩ := h
  have hcurrent : before.active.current = _ := (congrArg Cursor.current hactive).trans current_error
  intro hmove
  cases hmove with
  | enter heligible =>
      have hmem := Network.mem_of_eligibleCall? heligible
      rw [hcurrent] at hmem
      cases hmem
  | leave haccept =>
      rw [Cursor.atAccept, hcurrent] at haccept
      cases haccept
  | dismiss haccept =>
      rw [Cursor.atAccept, hcurrent] at haccept
      cases haccept
  | epsilon hepsilon =>
      rw [hcurrent] at hepsilon
      cases hepsilon

/-- Without a symbol nothing happens at an error state. -/
theorem Stuck.moves_eq {σ : Type} [Recorder σ] {network : Network} {limits : Limits}
    {symbol : Option String} {before after : Configuration σ} (h : grammar.Stuck before)
    (hmoves : before.Moves network limits symbol after) : after = before := by
  induction hmoves with
  | refl => rfl
  | tail _ hmove ih =>
      rw [ih] at hmove
      exact absurd hmove h.not_move

theorem Stuck.atError {σ : Type} {session : Session} {recorder : σ}
    (h : grammar.Stuck (session.configuration recorder)) : session.atError = true := by
  obtain ⟨name, hactive⟩ := h
  change session.active = _ at hactive
  rw [Session.atError, hactive]
  exact atError_cursor.mpr rfl

theorem Stuck.not_isAccepted {σ : Type} {session : Session} {recorder : σ}
    (h : grammar.Stuck (session.configuration recorder)) : session.isAccepted = false := by
  obtain ⟨name, hactive⟩ := h
  change session.active = _ at hactive
  have haccept : session.active.atAccept = false := by
    rw [Cursor.atAccept, hactive, current_error]
    rfl
  rw [Session.isAccepted, haccept, Bool.and_false]

end Grammar

/-- From an error state no sentence is accepted. -/
theorem Analyser.feedAll_of_stuck {grammar : Grammar} {analyser : Analyser} {tokens : List Token}
    (h : grammar.Stuck analyser.configuration) : (analyser.feedAll tokens).1 = false := by
  cases tokens with
  | nil =>
      obtain ⟨session, recorded, hmoves, heq⟩ := settle_eq analyser
      have hsame := h.moves_eq hmoves
      rw [← hsame] at h
      rw [feedAll, heq]
      exact h.not_isAccepted
  | cons token tokens =>
      rcases hfeed : analyser.feed token with ⟨consumed, after⟩
      rw [feedAll, hfeed]
      cases consumed with
      | false => rfl
      | true =>
          obtain ⟨session, recorded, -, hready, -⟩ := feed_of_consumed hfeed
          rw [Grammar.Stuck.atError h] at hready
          cases hready

end TransitionNetwork
