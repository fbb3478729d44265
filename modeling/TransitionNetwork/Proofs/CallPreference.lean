import TransitionNetwork.Proofs.CallChain
import TransitionNetwork.Proofs.LookaheadReach
import TransitionNetwork.Proofs.PredictiveParse
import TransitionNetwork.Proofs.SelectionSets

/-! Calls come before transitions. A state may have a transition on the symbol at hand and calls beside it.
On a selective grammar no callee begins with that symbol, so the transition is taken unless some callee
appears to start for another reason, as every machine does that can be passed without a symbol. Such a call
is entered although the transition is there, and what comes behind it has to take the symbol. -/

namespace TransitionNetwork

namespace Grammar

variable {grammar : Grammar} {compiled : GrammarNetwork} {symbol : String} {cursor : Cursor}

/-- On a selective grammar a transition on a symbol stands beside no call whose nonterminal has it as a
first. -/
theorem Selective.not_first_callee (hselective : grammar.Selective compiled.start)
    (hnetwork : grammar.Describes compiled.start compiled.network)
    (hholds : compiled.network.Holds cursor) {transition : Transition}
    (htransition : cursor.current.transition? symbol = some transition) {call : Call}
    (hcall : call ∈ cursor.current.calls) : ¬ grammar.First (.nonterminal call.callee) symbol := by
  obtain ⟨automaton, state⟩ := cursor
  have hmachine := hnetwork.machine_eq automaton hholds.1
  have hinside := inside_of_move hmachine hholds.2 (.inr (.inl (List.ne_nil_of_mem hcall)))
  have hlocate := locate?_word hinside
  change call ∈ (automaton.state state).calls at hcall
  change (automaton.state state).transition? symbol = some transition at htransition
  rw [hmachine] at hcall htransition
  have htaken := (continues_of_transition? hlocate htransition).selects
    (grammar.first_terminal symbol) compiled.start
  intro hfirst
  have hcalled := (continues_of_call hlocate hcall).selects hfirst compiled.start
  exact hselective _ _ _ _ (by simp) symbol htaken hcalled

end Grammar

namespace Session

variable {σ : Type} [Recorder σ] {grammar : Grammar} {compiled : GrammarNetwork} {limits : Limits}
  {session : Session} {symbol : String} {transition : Transition}

/-- A machine that has a transition is not at its error state. -/
theorem Chained.ready_of_transition (hnetwork : grammar.Describes compiled.start compiled.network)
    (h : session.Chained compiled.network limits)
    (htransition : session.active.current.transition? symbol = some transition) :
    session.atError = false := by
  have hholds := h.chain.holds _ List.mem_cons_self
  have hmachine := hnetwork.machine_eq _ hholds.1
  have hmem := List.mem_of_find?_eq_some htransition
  have hinside := Grammar.inside_of_move hmachine hholds.2 (.inl (List.ne_nil_of_mem hmem))
  exact Grammar.atError_of_ne hmachine hinside.2.2

/-- Where no call is entered, a transition on the symbol at hand is taken, and nothing else is done. -/
theorem Chained.input_of_transition (hnetwork : grammar.Describes compiled.start compiled.network)
    (h : session.Chained compiled.network limits)
    (htransition : session.active.current.transition? symbol = some transition) {recorder : σ}
    (hnone : session.enterCall? compiled.network limits (some symbol) (Recorder.mark recorder).2 =
      none) :
    session.input compiled.network limits symbol recorder =
      (true, session.control ⟨session.active.automaton, transition.target⟩,
        record transition.action session.active.machine (Recorder.mark recorder).2) := by
  have hready := h.ready_of_transition hnetwork htransition
  have hmachine := hnetwork.machine_eq _ (h.chain.holds _ List.mem_cons_self).1
  have hbehind := Grammar.error_lt_of_transition hmachine (List.mem_of_find?_eq_some htransition)
  -- the transition leads inside the trie, so that the machine does not return
  have hstays : (session.control ⟨session.active.automaton, transition.target⟩).active.atAccept =
      false := by
    rw [active_control, Bool.eq_false_iff, hmachine]
    intro haccept
    rw [Grammar.atAccept_cursor.mp haccept] at hbehind
    exact absurd hbehind (by decide)
  apply input_of_consumed
  rw [consume_of_apply ⟨Nat.zero_le _, Nat.zero_le _, hready⟩ hnone
    (Cursor.apply_of_transition? htransition _), if_pos rfl, leaveCall_of_not_atAccept hstays]

/-- If the machine of some callee can start, a call is entered before anything else is tried. -/
theorem Chained.consume_of_startable (h : session.Chained compiled.network limits)
    (hready : session.atError = false) {call : Call} (hcall : call ∈ session.active.current.calls)
    (hstartable : compiled.network.Startable (some symbol) call.callee)
    (hroom : session.depth < limits.maxCallDepth) (recorder : σ) :
    ∃ entered recorded,
      session.enterCall? compiled.network limits (some symbol) recorder = some (entered, recorded) ∧
      session.consume compiled.network limits symbol 0 0 recorder =
        (entered.leaveCall recorded).1.consume compiled.network limits symbol 0 1
          (entered.leaveCall recorded).2 := by
  have hholds := h.chain.holds _ List.mem_cons_self
  have hcallees := compiled.network.callee_mem _ hholds.1 _ (Automaton.state_mem hholds.2)
  obtain ⟨found, hfound, heligible, -⟩ := Network.exists_eligibleCall? hcallees hcall hstartable
  obtain ⟨callee, hcallee⟩ : ∃ callee, compiled.network.machine? found.callee = some callee := by
    obtain ⟨callee, hmem, hname⟩ := List.mem_map.mp (hcallees found hfound)
    rw [← Option.isSome_iff_exists, Network.machine?, List.find?_isSome]
    exact ⟨callee, hmem, decide_eq_true hname⟩
  have henter := enterCall?_of_some heligible hroom hcallee recorder
  exact ⟨_, _, henter, consume_of_enterCall? ⟨Nat.zero_le _, Nat.zero_le _, hready⟩ henter⟩

/-- On a selective grammar, a transition on the symbol at hand is taken, and no call is entered, if there
is no room for a call or no call beside it has a callee that derives a form which begins with an empty
nonterminal. If there is room and the machine of one of these callees can be passed without a symbol, a call
is entered first. -/
theorem Arises.transition_or_call (hcompile : grammar.compile = .ok compiled)
    (halone : grammar.EpsilonAlone) (hselective : grammar.Selective compiled.start)
    (h : Arises compiled.network limits session)
    (htransition : session.active.current.transition? symbol = some transition) (recorder : σ) :
    ((limits.maxCallDepth ≤ session.depth ∨
        ∀ call ∈ session.active.current.calls, ¬ grammar.wired.OpensEmpty call.callee) →
      session.input compiled.network limits symbol recorder =
        (true, session.control ⟨session.active.automaton, transition.target⟩,
          record transition.action session.active.machine (Recorder.mark recorder).2)) ∧
    ((∃ call ∈ session.active.current.calls, compiled.network.Skips call.callee) →
      session.depth < limits.maxCallDepth →
      ∃ entered recorded,
        session.enterCall? compiled.network limits (some symbol) recorder = some (entered, recorded) ∧
        session.consume compiled.network limits symbol 0 0 recorder =
          (entered.leaveCall recorded).1.consume compiled.network limits symbol 0 1
            (entered.leaveCall recorded).2) := by
  have hnetwork := (Grammar.describes_of_compile hcompile).2
  have hholds := h.chained.chain.holds _ List.mem_cons_self
  constructor
  · intro hcases
    apply h.chained.input_of_transition hnetwork htransition
    rcases hcases with hfull | hcallees
    · exact enterCall?_of_full hfull _
    · refine enterCall?_of_none (Network.eligibleCall?_eq_none fun call hcall hstartable => ?_) _
      rcases (Grammar.startable_iff_appearsToStart hcompile).mp hstartable with
        ⟨_, ⟨⟩, rest, hfirst⟩ | hopens
      · exact hselective.not_first_callee hnetwork hholds htransition hcall
          ⟨rest, halone.derives_of_wired hfirst⟩
      · exact hcallees call hcall hopens
  · rintro ⟨call, hcall, hskips⟩ hroom
    have hready := h.chained.ready_of_transition hnetwork htransition
    have hempty := Grammar.mem_nullable_iff.mp ((Grammar.skips_iff_mem_nullable hcompile).mp hskips)
    have hstartable : compiled.network.Startable (some symbol) call.callee :=
      (Grammar.startable_iff_appearsToStart hcompile).mpr (.inr ⟨call.callee, [], .refl, hempty⟩)
    exact h.chained.consume_of_startable hready hcall hstartable hroom recorder

/-- A call beside a transition; what the callee ends with may be empty, what it begins with may not. -/
def ending : Grammar where
  start := some "S"
  nonterminals := ["S", "N", "E"]
  terminals := ["x", "a", "n", "e"]
  rules := [⟨"S", [.nonterminal "N", .terminal "x"]⟩, ⟨"S", [.terminal "a"]⟩,
    ⟨"N", [.terminal "n", .nonterminal "E"]⟩, ⟨"E", [.terminal "e"]⟩, ⟨"E", [.epsilon]⟩]

def endingTable : SelectionTable where
  first name := if name = "S" then ["n", "a"] else if name = "N" then ["n"] else ["e"]
  follow name := if name = "S" then [] else ["x"]
  empty := ["E"]

theorem ending_selective (start : String) : ending.Selective start := by
  have hdecides : endingTable.Decides ending := by decide
  exact hdecides.selective start

theorem ending_not_opensEmpty : ¬ ending.wired.OpensEmpty "N" := by
  have hnullable : ending.wired.nullable = ["E"] := by cbv
  have hleads : ∀ rule ∈ ending.wired.rules, ∀ head ∈ rule.body.head?,
      head.vanishes ending.wired.nullable = true → rule.generator ∈ ending.wired.nullable := by
    rw [hnullable]
    decide
  intro hopens
  have hmem := Grammar.mem_nullable_iff.mpr (hopens.derivesEmpty hleads)
  rw [hnullable] at hmem
  exact absurd hmem (by decide)

/-- A call beside a transition, with a callee that may be empty. -/
def skipping : Grammar where
  start := some "S"
  nonterminals := ["S", "E"]
  terminals := ["x", "a", "e"]
  rules := [⟨"S", [.nonterminal "E", .terminal "x"]⟩, ⟨"S", [.terminal "a"]⟩,
    ⟨"E", [.terminal "e"]⟩, ⟨"E", [.epsilon]⟩]

def skippingTable : SelectionTable where
  first name := if name = "S" then ["e", "x", "a"] else ["e"]
  follow name := if name = "S" then [] else ["x"]
  empty := ["E"]

theorem skipping_selective (start : String) : skipping.Selective start := by
  have hdecides : skippingTable.Decides skipping := by decide
  exact hdecides.selective start

/-- At the beginning of both grammars there is a transition on `a` beside a call. The first takes it, the
second enters the call. -/
theorem ending_transition_skipping_call :
    (∃ compiled transition, ending.compile = .ok compiled ∧
      (start compiled.network).active.current.transition? "a" = some transition ∧
      (start compiled.network).active.current.calls ≠ [] ∧
      (start compiled.network).input compiled.network {} "a" () =
        (true, (start compiled.network).control ⟨compiled.network.start, transition.target⟩, ())) ∧
    ∃ compiled transition, skipping.compile = .ok compiled ∧
      (start compiled.network).active.current.transition? "a" = some transition ∧
      ∃ entered recorded,
        (start compiled.network).enterCall? compiled.network {} (some "a") () =
          some (entered, recorded) ∧
        (start compiled.network).consume compiled.network {} "a" 0 0 () =
          (entered.leaveCall recorded).1.consume compiled.network {} "a" 0 1
            (entered.leaveCall recorded).2 := by
  constructor
  · have hok : (match ending.compile with
        | .ok compiled =>
          ((start compiled.network).active.current.transition? "a").isSome &&
            (start compiled.network).active.current.calls.map (·.callee) == ["N"]
        | .error _ => false) = true := by cbv
    split at hok
    · next compiled hcompile =>
      rw [Bool.and_eq_true, beq_iff_eq] at hok
      obtain ⟨transition, htransition⟩ := Option.isSome_iff_exists.mp hok.1
      have hcalls := hok.2
      refine ⟨compiled, transition, hcompile, htransition, ?_, ?_⟩
      · intro hnil
        rw [hnil] at hcalls
        cases hcalls
      · refine (Arises.transition_or_call hcompile (by decide) (ending_selective _) .start htransition
          ()).1 (.inr fun call hcall => ?_)
        have hmem := List.mem_map_of_mem (f := Call.callee) hcall
        rw [hcalls] at hmem
        rw [List.mem_singleton.mp hmem]
        exact ending_not_opensEmpty
    · cases hok
  · have hok : (match skipping.compile with
        | .ok compiled =>
          ((start compiled.network).active.current.transition? "a").isSome &&
            (start compiled.network).active.current.calls.map (·.callee) == ["E"]
        | .error _ => false) = true := by cbv
    split at hok
    · next compiled hcompile =>
      rw [Bool.and_eq_true, beq_iff_eq] at hok
      obtain ⟨transition, htransition⟩ := Option.isSome_iff_exists.mp hok.1
      have hmem : "E" ∈ (start compiled.network).active.current.calls.map (·.callee) := by
        rw [hok.2]
        exact List.mem_cons_self
      obtain ⟨call, hcall, hname⟩ := List.mem_map.mp hmem
      have hskips : compiled.network.Skips call.callee := by
        have hnullable : skipping.wired.nullable = ["E"] := by cbv
        rw [hname, Grammar.skips_iff_mem_nullable hcompile, hnullable]
        exact List.mem_cons_self
      exact ⟨compiled, transition, hcompile, htransition,
        (Arises.transition_or_call hcompile (by decide) (skipping_selective _) .start htransition
          ()).2 ⟨call, hcall, hskips⟩ (Nat.zero_lt_succ 255)⟩
    · cases hok

/-- It is not so that a selective grammar keeps calls from taking a symbol for which there is a transition,
not even the first symbol. -/
theorem not_transition_first :
    ¬ ∀ (grammar : Grammar) (compiled : GrammarNetwork), grammar.compile = .ok compiled →
      grammar.EpsilonAlone → grammar.Selective compiled.start →
      ∀ (limits : Limits) (symbol : String) (transition : Transition),
        (start compiled.network).active.current.transition? symbol = some transition →
        (start compiled.network).input compiled.network limits symbol () =
          (true, (start compiled.network).control ⟨compiled.network.start, transition.target⟩, ()) := by
  intro hfirst
  have hok : (match skipping.compile with
      | .ok compiled =>
        ((start compiled.network).active.current.transition? "a").map (·.target) == some 5 &&
          ((start compiled.network).input compiled.network {} "a" ()).2.1.active.state ==
            Trie.error
      | .error _ => false) = true := by cbv
  split at hok
  · next compiled hcompile =>
    rw [Bool.and_eq_true, beq_iff_eq, beq_iff_eq] at hok
    obtain ⟨htarget, hstate⟩ := hok
    obtain ⟨transition, htransition, hfive⟩ := Option.map_eq_some_iff.mp htarget
    rw [hfirst skipping compiled hcompile (by decide) (skipping_selective _) {} "a" transition
      htransition, active_control, hfive] at hstate
    cases hstate
  · cases hok

end Session

end TransitionNetwork
