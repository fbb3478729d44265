import TransitionNetwork.Proofs.CompiledNetwork
import Mathlib.Data.List.Induction

/-! Paths in a compiled machine. `Trie.locate?` follows symbols from the root, a terminal along its
transition and a nonterminal along its call. Growing a trie takes no path away, so the body of every rule
can be followed to a state that has an epsilon move; and a state inside the trie is found on the way along
the body of a rule, by the symbols that it spells and by no others. -/

namespace TransitionNetwork

namespace State

/-- The second state has the moves of the first and perhaps more behind them. -/
structure Extends (before after : State) : Prop where
  transition : ∀ name transition, before.transition? name = some transition →
    after.transition? name = some transition
  call : ∀ callee call, before.call? callee = some call → after.call? callee = some call
  epsilon : before.epsilon.isSome → after.epsilon.isSome

theorem Extends.refl (state : State) : Extends state state :=
  ⟨fun _ _ h => h, fun _ _ h => h, id⟩

theorem extends_of_blank (name : String) (after : State) : Extends { name := name } after := by
  constructor <;> simp [transition?, call?]

end State

namespace Trie

/-- Every state of the first automaton is extended by that of the second. -/
def Extends (before after : Automaton) : Prop :=
  ∀ index, (before.state index).Extends (after.state index)

theorem Extends.refl (automaton : Automaton) : Extends automaton automaton :=
  fun index => .refl (automaton.state index)

theorem Extends.trans {first second third : Automaton} (h : Extends first second)
    (h' : Extends second third) : Extends first third := fun index =>
  ⟨fun name transition hfound => (h' index).transition _ _ ((h index).transition name transition hfound),
    fun callee call hfound => (h' index).call _ _ ((h index).call callee call hfound),
    fun hsome => (h' index).epsilon ((h index).epsilon hsome)⟩

/-! ### Following symbols -/

/-- The state behind a terminal or a nonterminal. -/
def step? (automaton : Automaton) (source : Nat) : Symbol → Option Nat
  | .terminal name => ((automaton.state source).transition? name).map (·.target)
  | .nonterminal name => ((automaton.state source).call? name).map (·.target)
  | .epsilon => none

/-- The state that symbols lead to from the root. -/
def locate? (automaton : Automaton) (symbols : List Symbol) : Option Nat :=
  symbols.foldlM (step? automaton) root

@[simp] theorem locate?_nil (automaton : Automaton) : locate? automaton [] = some root := rfl

theorem locate?_concat (automaton : Automaton) (symbols : List Symbol) (symbol : Symbol) :
    locate? automaton (symbols ++ [symbol]) =
      (locate? automaton symbols).bind fun state => step? automaton state symbol := by
  simp [locate?, List.foldlM_append]

theorem locate?_of_isPrefix {automaton : Automaton} {symbols longer : List Symbol}
    (h : symbols <+: longer) (hlonger : (locate? automaton longer).isSome) :
    (locate? automaton symbols).isSome := by
  obtain ⟨rest, rfl⟩ := h
  rw [locate?, List.foldlM_append] at hlonger
  cases hlocate : locate? automaton symbols with
  | none =>
      rw [locate?] at hlocate
      rw [hlocate] at hlonger
      cases hlonger
  | some state => rfl

theorem Extends.step? {before after : Automaton} (h : Extends before after) {source target : Nat}
    {symbol : Symbol} (hstep : Trie.step? before source symbol = some target) :
    Trie.step? after source symbol = some target := by
  cases symbol with
  | terminal name =>
      obtain ⟨transition, hfound, rfl⟩ := Option.map_eq_some_iff.mp hstep
      simp [Trie.step?, (h source).transition name transition hfound]
  | nonterminal name =>
      obtain ⟨call, hfound, rfl⟩ := Option.map_eq_some_iff.mp hstep
      simp [Trie.step?, (h source).call name call hfound]
  | epsilon => cases hstep

theorem Extends.locate? {before after : Automaton} (h : Extends before after)
    {symbols : List Symbol} {state : Nat} (hlocate : Trie.locate? before symbols = some state) :
    Trie.locate? after symbols = some state := by
  induction symbols using List.reverseRecOn generalizing state with
  | nil => exact hlocate
  | append_singleton symbols symbol ih =>
      rw [locate?_concat] at hlocate ⊢
      obtain ⟨source, hsource, hstep⟩ := Option.bind_eq_some_iff.mp hlocate
      exact Option.bind_eq_some_iff.mpr ⟨source, ih hsource, h.step? hstep⟩

/-! ### Edits extend an automaton -/

variable {automaton : Automaton}

theorem extends_update {index : Nat} (hindex : index < automaton.size) {change : State → State}
    (htargets : ∀ state, ∀ target ∈ (change state).targets,
      target ∈ state.targets ∨ target < automaton.size)
    (hchange : (automaton.state index).Extends (change (automaton.state index))) :
    Extends automaton (automaton.update index change htargets) := by
  intro other
  rw [automaton.state_update hindex]
  split
  · next heq =>
    subst heq
    exact hchange
  · exact .refl _

theorem extends_addTransition {transition : Transition}
    (hsource : transition.source < automaton.size) :
    Extends automaton (automaton.addTransition transition) := by
  rw [Automaton.addTransition]
  split
  · refine extends_update hsource _ ⟨?_, fun _ _ h => h, id⟩
    intro name found hfound
    rw [State.transition?] at hfound ⊢
    rw [List.find?_append, hfound]
    rfl
  · exact .refl automaton

theorem extends_addCall {call : Call} (hsource : call.source < automaton.size) :
    Extends automaton (automaton.addCall call) := by
  rw [Automaton.addCall]
  split
  · refine extends_update hsource _ ⟨fun _ _ h => h, ?_, id⟩
    intro callee found hfound
    rw [State.call?] at hfound ⊢
    rw [List.find?_append, hfound]
    rfl
  · exact .refl automaton

theorem extends_setEpsilon {source target : Nat} (hsource : source < automaton.size) :
    Extends automaton (automaton.setEpsilon source target) := by
  rw [Automaton.setEpsilon]
  split
  · exact extends_update hsource _ ⟨fun _ _ h => h, fun _ _ h => h, fun _ => rfl⟩
  · exact .refl automaton

theorem extends_setAlternate {source target : Nat} (hsource : source < automaton.size) :
    Extends automaton (automaton.setAlternate source target) := by
  rw [Automaton.setAlternate]
  split
  · exact extends_update hsource _ ⟨fun _ _ h => h, fun _ _ h => h, id⟩
  · exact .refl automaton

/-- The epsilon move of a state is there once it is set. -/
theorem epsilon_setEpsilon {source target : Nat} (hsource : source < automaton.size)
    (htarget : target < automaton.size) :
    ((automaton.setEpsilon source target).state source).epsilon.isSome := by
  rw [Automaton.setEpsilon, dif_pos htarget, automaton.state_update hsource, if_pos rfl]
  rfl

variable {rules : List Rule} {word : Nat → List Symbol} {source : Nat}

namespace Spells

/-- Symbols that can be followed are those that the state spells. -/
theorem word_eq_of_locate? (h : Spells automaton rules word) {symbols : List Symbol} {state : Nat}
    (hlocate : locate? automaton symbols = some state) :
    Inside automaton state ∧ word state = symbols := by
  induction symbols using List.reverseRecOn generalizing state with
  | nil =>
      cases hlocate
      exact ⟨h.inside_root, h.word_root⟩
  | append_singleton symbols symbol ih =>
      rw [locate?_concat] at hlocate
      obtain ⟨source, hsource, hstep⟩ := Option.bind_eq_some_iff.mp hlocate
      obtain ⟨hinside, hword⟩ := ih hsource
      have hreads := h.reads source hinside.2.1 hinside.2.2
      cases symbol with
      | terminal name =>
          obtain ⟨transition, hfound, rfl⟩ := Option.map_eq_some_iff.mp hstep
          obtain ⟨-, htarget, htargetWord⟩ := hreads.of_transition? hfound
          have hmem := State.target_mem_of_transition (List.mem_of_find?_eq_some hfound)
          exact ⟨inside_of_lt (automaton.target_lt_size hmem) htarget, by rw [htargetWord, hword]⟩
      | nonterminal name =>
          obtain ⟨call, hfound, rfl⟩ := Option.map_eq_some_iff.mp hstep
          obtain ⟨-, htarget, htargetWord⟩ := hreads.of_call? hfound
          have hmem := State.target_mem_of_call (List.mem_of_find?_eq_some hfound)
          exact ⟨inside_of_lt (automaton.target_lt_size hmem) htarget, by rw [htargetWord, hword]⟩
      | epsilon => cases hstep

theorem extends_addFresh (h : Spells automaton rules word) (name : String) :
    Extends automaton (Trie.addFresh automaton name).1 := by
  intro index
  rw [Trie.addFresh, Automaton.state_addState (h.name_ne_freshName name)]
  split
  · next heq =>
    rw [heq, Automaton.state_of_size_le (Nat.le_refl _)]
    exact State.extends_of_blank _ _
  · exact .refl _

/-- A new state leaves the others as they are. -/
theorem state_addFresh (h : Spells automaton rules word) (name : String) {index : Nat}
    (hindex : index < automaton.size) :
    (Trie.addFresh automaton name).1.state index = automaton.state index := by
  rw [Trie.addFresh, Automaton.state_addState (h.name_ne_freshName name),
    if_neg (Nat.ne_of_lt hindex)]

theorem lt_or_eq_of_lt_addFresh (h : Spells automaton rules word) {name : String} {index : Nat}
    (hlt : index < (Trie.addFresh automaton name).1.size) :
    index < automaton.size ∨ index = (Trie.addFresh automaton name).2 := by
  rw [h.size_addFresh] at hlt
  rw [h.addFresh_target]
  exact Nat.lt_succ_iff_lt_or_eq.mp hlt

end Spells

/-! ### Going on by one symbol -/

theorem step?_addTransition {target : Nat} {name : String} (hsource : source < automaton.size)
    (htarget : target < automaton.size)
    (hnone : (automaton.state source).transition? name = none) :
    step? (automaton.addTransition ⟨source, target, [name], some .leaf⟩) source (.terminal name) =
      some target := by
  rw [step?, Automaton.addTransition, dif_pos htarget, Automaton.state_update _ hsource, if_pos rfl,
    State.transition?, List.find?_append]
  rw [State.transition?] at hnone
  rw [hnone]
  simp [Transition.accepts]

theorem step?_addCall {target : Nat} {callee : String} (hsource : source < automaton.size)
    (htarget : target < automaton.size) (hnone : (automaton.state source).call? callee = none) :
    step? (automaton.addCall ⟨source, target, callee, some .descend, some .ascend⟩) source
      (.nonterminal callee) = some target := by
  rw [step?, Automaton.addCall, dif_pos htarget, Automaton.state_update _ hsource, if_pos rfl,
    State.call?, List.find?_append]
  rw [State.call?] at hnone
  rw [hnone]
  simp

/-- What going on by a symbol does: the automaton is extended, the symbol leads to the answer, and no
other state is new. -/
structure Advances (automaton : Automaton) (source : Nat) (symbol : Symbol)
    (result : Automaton × Nat) : Prop where
  extended : Extends automaton result.1
  step_eq : symbol ≠ .epsilon → step? result.1 source symbol = some result.2
  stays : symbol = .epsilon → result.2 = source
  new : ∀ index < result.1.size, index < automaton.size ∨ index = result.2

/-- Going on along a move that is there. -/
theorem advances_of_step? {target : Nat} {symbol : Symbol}
    (h : step? automaton source symbol = some target) :
    Advances automaton source symbol (automaton, target) where
  extended := .refl automaton
  step_eq := fun _ => h
  stays := by
    rintro rfl
    cases h
  new := fun _ hlt => .inl hlt

theorem Spells.advances_extend (h : Spells automaton rules word) (hsource : Inside automaton source)
    (symbol : Symbol) : Advances automaton source symbol (Trie.extend automaton source symbol) := by
  have hpos := h.error_lt
  have hlt (name : String) : source < (Trie.addFresh automaton name).1.size := by
    rw [h.size_addFresh]
    exact Nat.lt_succ_of_lt hsource.1
  have htarget (name : String) :
      (Trie.addFresh automaton name).2 < (Trie.addFresh automaton name).1.size := by
    rw [h.size_addFresh, h.addFresh_target]
    exact Nat.lt_succ_self _
  cases symbol with
  | terminal name =>
      rw [Trie.extend]
      cases hfound : (automaton.state source).transition? name with
      | some transition =>
          apply advances_of_step?
          rw [step?, hfound]
          rfl
      | none =>
          rw [← h.state_addFresh name hsource.1] at hfound
          have hstep := step?_addTransition (hlt name) (htarget name) hfound
          let added := (Trie.addFresh automaton name).1.addTransition
            ⟨source, (Trie.addFresh automaton name).2, [name], some .leaf⟩
          have hadded : Extends (Trie.addFresh automaton name).1 added :=
            extends_addTransition (hlt name)
          have hset : Extends added (added.setAlternate source error) :=
            extends_setAlternate (by rw [Automaton.size_addTransition]; exact hlt name)
          refine ⟨((h.extends_addFresh name).trans hadded).trans hset, fun _ => hset.step? hstep,
            fun hepsilon => Symbol.noConfusion hepsilon,
            fun index hindex => h.lt_or_eq_of_lt_addFresh ?_⟩
          rwa [Automaton.size_setAlternate, Automaton.size_addTransition] at hindex
  | nonterminal name =>
      rw [Trie.extend]
      cases hfound : (automaton.state source).call? name with
      | some call =>
          apply advances_of_step?
          rw [step?, hfound]
          rfl
      | none =>
          rw [← h.state_addFresh name hsource.1] at hfound
          have hstep := step?_addCall (hlt name) (htarget name) hfound
          refine ⟨(h.extends_addFresh name).trans (extends_addCall (hlt name)), fun _ => hstep,
            fun hepsilon => Symbol.noConfusion hepsilon,
            fun index hindex => h.lt_or_eq_of_lt_addFresh ?_⟩
          rwa [Automaton.size_addCall] at hindex
  | epsilon =>
      refine ⟨extends_setEpsilon (Nat.zero_lt_of_lt hpos), fun hne => absurd rfl hne, fun _ => rfl,
        fun index hindex => .inl ?_⟩
      rwa [Trie.extend, Automaton.size_setEpsilon] at hindex

/-! ### Going along a rule -/

/-- Every state behind the first three is on the way along the body of a rule. -/
def Reached (automaton : Automaton) (rules : List Rule) : Prop :=
  ∀ index < automaton.size, error < index →
    ∃ rule ∈ rules, ∃ symbols, symbols <+: rule.body ∧ locate? automaton symbols = some index

/-- The body of a rule can be followed, to a state with an epsilon move unless that is the root. -/
def Found (automaton : Automaton) (rule : Rule) : Prop :=
  ∃ last, locate? automaton rule.body = some last ∧
    (last ≠ root → (automaton.state last).epsilon.isSome)

theorem Found.extends {after : Automaton} {rule : Rule} (h : Found automaton rule)
    (hextends : Extends automaton after) : Found after rule := by
  obtain ⟨last, hlast, hepsilon⟩ := h
  exact ⟨last, hextends.locate? hlast, fun hne => (hextends last).epsilon (hepsilon hne)⟩

theorem reached_empty (nonterminal : String) (rules : List Rule) :
    Reached (empty nonterminal) rules := by
  intro index hlt herror
  have hsize : (empty nonterminal).size = 3 := rfl
  rw [hsize] at hlt
  rw [error] at herror
  omega

theorem Reached.of_advances {pre : List Symbol} {rule : Rule} {symbol : Symbol}
    {result : Automaton × Nat} (h : Reached automaton rules)
    (hadvances : Advances automaton source symbol result) (hrule : rule ∈ rules)
    (hbegins : pre ++ [symbol].filter (· ≠ .epsilon) <+: rule.body)
    (hlocate : locate? automaton pre = some source) :
    locate? result.1 (pre ++ [symbol].filter (· ≠ .epsilon)) = some result.2 ∧
      Reached result.1 rules := by
  have hresult : locate? result.1 (pre ++ [symbol].filter (· ≠ .epsilon)) = some result.2 := by
    have hbefore := hadvances.extended.locate? hlocate
    by_cases hepsilon : symbol = .epsilon
    · rw [hadvances.stays hepsilon, hepsilon]
      simpa using hbefore
    · rw [List.filter_cons_of_pos (by simpa using hepsilon), List.filter_nil, locate?_concat, hbefore]
      exact hadvances.step_eq hepsilon
  refine ⟨hresult, fun index hlt herror => ?_⟩
  rcases hadvances.new index hlt with hold | rfl
  · obtain ⟨other, hother, symbols, hsymbols, hfound⟩ := h index hold herror
    exact ⟨other, hother, symbols, hsymbols, hadvances.extended.locate? hfound⟩
  · exact ⟨rule, hrule, _, hbegins, hresult⟩

namespace Spells

/-- The induction is on the symbols to come; `pre` are those that lead to the source. -/
theorem foldl_follow (symbols : List Symbol) (h : Spells automaton rules word)
    (hreached : Reached automaton rules) {rule : Rule} (hrule : rule ∈ rules) {pre : List Symbol}
    (hbegins : pre ++ symbols.filter (· ≠ .epsilon) <+: rule.body)
    (hlocate : locate? automaton pre = some source)
    (hepsilon : .epsilon ∈ symbols → .epsilon ∈ rule.elements) :
    let result := symbols.foldl (fun state symbol => Trie.extend state.1 state.2 symbol)
      (automaton, source)
    Extends automaton result.1 ∧
      locate? result.1 (pre ++ symbols.filter (· ≠ .epsilon)) = some result.2 ∧
      Reached result.1 rules := by
  induction symbols generalizing automaton source word pre with
  | nil => exact ⟨.refl automaton, by simpa using hlocate, hreached⟩
  | cons symbol symbols ih =>
      have hinside := (h.word_eq_of_locate? hlocate).1
      have hadvances := h.advances_extend hinside symbol
      obtain ⟨word', hextended, -, -⟩ := h.extend hinside
        fun heq => ⟨rule, hrule, hepsilon (heq ▸ List.mem_cons_self)⟩
      have hsplit : (symbol :: symbols).filter (· ≠ .epsilon) =
          [symbol].filter (· ≠ .epsilon) ++ symbols.filter (· ≠ .epsilon) := by
        rw [← List.filter_append, List.singleton_append]
      rw [hsplit, ← List.append_assoc] at hbegins ⊢
      obtain ⟨hnext, hreached'⟩ := hreached.of_advances hadvances hrule
        ((List.prefix_append ..).trans hbegins) hlocate
      obtain ⟨hrest, hlast, hall⟩ := ih hextended hreached' hbegins hnext
        fun hmem => hepsilon (List.mem_cons_of_mem _ hmem)
      exact ⟨hadvances.extended.trans hrest, hlast, hall⟩

theorem follow_addRule (h : Spells automaton rules word) (hreached : Reached automaton rules)
    {rule : Rule} (hrule : rule ∈ rules) :
    Extends automaton (Trie.addRule automaton rule) ∧ Found (Trie.addRule automaton rule) rule ∧
      Reached (Trie.addRule automaton rule) rules := by
  have hfold := h.foldl_follow rule.elements hreached hrule (List.prefix_refl _) (locate?_nil _) id
  obtain ⟨word', hspells, hinside, -⟩ :=
    h.foldl_extend rule.elements h.inside_root fun hmem => ⟨rule, hrule, hmem⟩
  rw [Trie.addRule]
  dsimp only [extendAll] at hfold hspells hinside ⊢
  obtain ⟨hextends, hlast, hall⟩ := hfold
  split
  · next hroot => exact ⟨hextends, ⟨_, hlast, fun hne => absurd hroot hne⟩, hall⟩
  · have hset : Extends _ (Automaton.setEpsilon _ _ final) := extends_setEpsilon hinside.1
    refine ⟨hextends.trans hset, ⟨_, hset.locate? hlast, fun _ => ?_⟩, fun index hlt herror => ?_⟩
    · exact epsilon_setEpsilon hinside.1 (Nat.lt_trans (by decide) hspells.error_lt)
    · rw [Automaton.size_setEpsilon] at hlt
      obtain ⟨other, hother, symbols, hsymbols, hfound⟩ := hall index hlt herror
      exact ⟨other, hother, symbols, hsymbols, hset.locate? hfound⟩

end Spells

end Trie

namespace Grammar

variable {grammar : Grammar} {nonterminal : String}

/-- The machine of a nonterminal has the paths of its rules and no others. The induction is on the rules
to add; those that were added before stay found. -/
theorem follow_machine (grammar : Grammar) (nonterminal : String) :
    Trie.Reached (grammar.machine nonterminal) (grammar.rulesFor nonterminal) ∧
      ∀ rule ∈ grammar.rulesFor nonterminal, Trie.Found (grammar.machine nonterminal) rule := by
  have hfold : ∀ (added : List Rule) (automaton : Automaton) (word : Nat → List Symbol),
      (∀ rule ∈ added, rule ∈ grammar.rulesFor nonterminal) →
      Trie.Spells automaton (grammar.rulesFor nonterminal) word →
      Trie.Reached automaton (grammar.rulesFor nonterminal) →
      Trie.Extends automaton (added.foldl Trie.addRule automaton) ∧
        Trie.Reached (added.foldl Trie.addRule automaton) (grammar.rulesFor nonterminal) ∧
        ∀ rule ∈ added, Trie.Found (added.foldl Trie.addRule automaton) rule := by
    intro added
    induction added with
    | nil => exact fun automaton _ _ _ hreached => ⟨.refl automaton, hreached, nofun⟩
    | cons rule added ih =>
        intro automaton word hadded hspells hreached
        have hrule := hadded rule List.mem_cons_self
        obtain ⟨hextends, hfound, hreached'⟩ := hspells.follow_addRule hreached hrule
        obtain ⟨word', hspells'⟩ := hspells.addRule hrule
        obtain ⟨hrest, hreached'', hothers⟩ := ih _ word'
          (fun other hother => hadded other (List.mem_cons_of_mem _ hother)) hspells' hreached'
        refine ⟨hextends.trans hrest, hreached'', fun other hother => ?_⟩
        rcases List.mem_cons.mp hother with rfl | hother
        · exact hfound.extends hrest
        · exact hothers other hother
  exact (hfold _ _ _ (fun _ hmem => hmem) (Trie.spells_empty nonterminal _)
    (Trie.reached_empty nonterminal _)).2

/-- A state that some symbols lead to spells these symbols. -/
theorem word_of_locate? {symbols : List Symbol} {state : Nat}
    (h : Trie.locate? (grammar.machine nonterminal) symbols = some state) :
    Trie.Inside (grammar.machine nonterminal) state ∧ grammar.word nonterminal state = symbols :=
  (grammar.spells_word nonterminal).word_eq_of_locate? h

/-- A state inside the machine is located by the symbols that it spells. -/
theorem locate?_word {state : Nat} (h : Trie.Inside (grammar.machine nonterminal) state) :
    Trie.locate? (grammar.machine nonterminal) (grammar.word nonterminal state) = some state := by
  by_cases hroot : state = Trie.root
  · rw [hroot, (grammar.spells_word nonterminal).word_root, Trie.locate?_nil]
  · have herror : Trie.error < state := by
      obtain ⟨-, hfinal, herror⟩ := h
      simp only [Trie.root, Trie.final, Trie.error] at *
      omega
    obtain ⟨rule, hrule, symbols, -, hlocate⟩ :=
      (grammar.follow_machine nonterminal).1 state h.1 herror
    rw [(word_of_locate? hlocate).2]
    exact hlocate

/-- Symbols that can be followed begin one of the rules. -/
theorem begins_of_locate? {symbols : List Symbol} {state : Nat} (hne : symbols ≠ [])
    (h : Trie.locate? (grammar.machine nonterminal) symbols = some state) :
    ∃ rule ∈ grammar.rulesFor nonterminal, symbols <+: rule.body := by
  obtain ⟨⟨hlt, hfinal, herror⟩, hword⟩ := word_of_locate? h
  have hroot : state ≠ Trie.root := by
    rintro rfl
    rw [(grammar.spells_word nonterminal).word_root] at hword
    exact hne hword.symm
  have hbehind : Trie.error < state := by
    simp only [Trie.root, Trie.final, Trie.error] at *
    omega
  obtain ⟨rule, hrule, others, hbegins, hothers⟩ :=
    (grammar.follow_machine nonterminal).1 state hlt hbehind
  rw [← hword, (word_of_locate? hothers).2]
  exact ⟨rule, hrule, hbegins⟩

end Grammar

end TransitionNetwork
