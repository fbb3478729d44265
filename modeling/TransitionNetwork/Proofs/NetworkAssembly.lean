import TransitionNetwork.Proofs.LeftRecursion
import TransitionNetwork.Proofs.PredictiveGrammar

/-! From a checked grammar to its network. What can be wrong with machines that are put together is that
there are none, that two have one name, that none has the name of the start, or that a call goes nowhere or
stands beside a terminal of the same name. The machines of a grammar that has passed its check, with
nonterminals that are declared once, have none of these faults: calls are named after nonterminals of the
rules, and transitions after terminals. So the check is all that can keep such a grammar from its network. -/

namespace TransitionNetwork

namespace Network

theorem duplicate?_eq_none {seen names : List String} (hnodup : names.Nodup)
    (hnew : ∀ name ∈ names, name ∉ seen) : duplicate? seen names = none := by
  induction names generalizing seen with
  | nil => rfl
  | cons name names ih =>
      obtain ⟨hname, hrest⟩ := List.nodup_cons.mp hnodup
      obtain ⟨hfirst, hlater⟩ := List.forall_mem_cons.mp hnew
      rw [duplicate?, if_neg hfirst]
      apply ih hrest
      intro other hother
      rw [List.mem_cons, not_or]
      refine ⟨?_, hlater other hother⟩
      rintro rfl
      exact hname hother

/-- Every call has a machine to go to, and its name is no terminal where it stands. -/
def CallsResolve (machines : List Automaton) : Prop :=
  ∀ machine ∈ machines, ∀ state ∈ machine.states, ∀ call ∈ state.calls,
    call.callee ∈ machines.map (·.name) ∧ state.transition? call.callee = none

theorem CallsResolve.firstCallError?_eq_none {machines : List Automaton}
    (h : CallsResolve machines) : firstCallError? machines = none := by
  simp only [firstCallError?, List.findSome?_eq_none_iff]
  intro machine hmachine state hstate call hcall
  obtain ⟨hcallee, hnone⟩ := h machine hmachine state hstate call hcall
  have hapart : ¬ state.hasTransition call.callee = true := by simp [State.hasTransition, hnone]
  rw [callError?, if_neg (not_not_intro hcallee), if_neg hapart]

/-- Machines without a fault make a network. -/
theorem exists_ofMachines {machines : List Automaton} {start : String}
    (hnodup : (machines.map (·.name)).Nodup) (hstart : start ∈ machines.map (·.name))
    (hcalls : CallsResolve machines) : ∃ network, ofMachines machines (some start) = .ok network := by
  obtain ⟨first, hfirst⟩ : ∃ first, machines.head? = some first := by
    cases machines with
    | nil => cases hstart
    | cons first rest => exact ⟨first, rfl⟩
  have hduplicates : duplicate? [] (machines.map (·.name)) = none :=
    duplicate?_eq_none hnodup fun _ _ => List.not_mem_nil
  have hfound : machines.find? (·.name = start) ≠ none := by
    obtain ⟨machine, hmachine, hname⟩ := List.mem_map.mp hstart
    intro hnone
    exact List.find?_eq_none.mp hnone machine hmachine (decide_eq_true hname)
  cases hresult : ofMachines machines (some start) with
  | ok network => exact ⟨network, rfl⟩
  | error error =>
      rw [ofMachines, hfirst] at hresult
      dsimp only at hresult
      split at hresult
      · next name hname =>
        rw [hduplicates] at hname
        cases hname
      · split at hresult
        · next hnone => exact absurd hnone hfound
        · split at hresult
          · next error hwrong =>
            rw [hcalls.firstCallError?_eq_none] at hwrong
            cases hwrong
          · cases hresult

/-- A call finds its machine. -/
theorem exists_callee (network : Network) {machine : Automaton} (hmachine : machine ∈ network.machines)
    {state : State} (hstate : state ∈ machine.states) {call : Call} (hcall : call ∈ state.calls) :
    ∃ callee ∈ network.machines, network.machine? call.callee = some callee := by
  obtain ⟨named, hnamed, hname⟩ :=
    List.mem_map.mp (network.callee_mem machine hmachine state hstate call hcall)
  cases hfound : network.machine? call.callee with
  | none => exact absurd (decide_eq_true hname) (List.find?_eq_none.mp hfound named hnamed)
  | some callee => exact ⟨callee, (mem_of_machine? hfound).1, rfl⟩

end Network

namespace Grammar

variable {grammar : Grammar} {start : String}

theorem names_machines (grammar : Grammar) (start : String) :
    (grammar.machines start).map (·.name) =
      start :: grammar.nonterminals.filter (· ≠ start) := by
  simp [machines, Function.comp_def]

theorem nodup_names_machines (hnodup : grammar.nonterminals.Nodup) (start : String) :
    ((grammar.machines start).map (·.name)).Nodup := by
  rw [names_machines, List.nodup_cons]
  exact ⟨by simp, hnodup.filter _⟩

theorem perm_names_machines (hnodup : grammar.nonterminals.Nodup)
    (hstart : start ∈ grammar.nonterminals) :
    ((grammar.machines start).map (·.name)).Perm grammar.nonterminals := by
  rw [List.perm_ext_iff_of_nodup (nodup_names_machines hnodup start) hnodup]
  intro name
  rw [names_machines, List.mem_cons, List.mem_filter, decide_eq_true_eq]
  constructor
  · rintro (rfl | hname)
    · exact hstart
    · exact hname.1
  · intro hname
    by_cases hsame : name = start
    · exact .inl hsame
    · exact .inr ⟨hname, hsame⟩

/-- A call in a machine of a checked grammar is one of a nonterminal, and no terminal of that name stands
beside it. -/
theorem resolves_of_check (h : grammar.check = .ok start) {name : String} {state : State}
    (hstate : state ∈ (grammar.machine name).states) {call : Call} (hcall : call ∈ state.calls) :
    call.callee ∈ grammar.nonterminals ∧ state.transition? call.callee = none := by
  obtain ⟨-, -, hwell⟩ := check_eq_ok h
  obtain ⟨index, hindex, rfl⟩ := List.getElem_of_mem hstate
  have hstate? : (grammar.machine name).state index = (grammar.machine name).states[index] := by
    rw [Automaton.state, List.getElem?_eq_getElem hindex, Option.getD_some]
  rw [← hstate?] at hcall ⊢
  have hmachine : (⟨grammar.machine name, index⟩ : Cursor).automaton = grammar.machine name := rfl
  have hlocate := locate?_word
    (inside_of_move hmachine hindex (.inr (.inl (List.ne_nil_of_mem hcall))))
  obtain ⟨rule, hrule, hbegins⟩ := continues_of_call hlocate hcall
  have hcallee : call.callee ∈ grammar.nonterminals := by
    refine hwell.mem_nonterminals (mem_rulesFor.mp hrule).1 ?_
    exact Rule.mem_elements_of_mem_body (hbegins.subset (by simp))
  refine ⟨hcallee, ?_⟩
  cases htransition : ((grammar.machine name).state index).transition? call.callee with
  | none => rfl
  | some transition =>
      obtain ⟨rule, hrule, hbegins⟩ := continues_of_transition? hlocate htransition
      have hterminal : Symbol.terminal call.callee ∈ rule.elements :=
        Rule.mem_elements_of_mem_body (hbegins.subset (by simp))
      exact absurd hcallee
        (hwell.terminalsApart rule (mem_rulesFor.mp hrule).1 call.callee hterminal)

theorem callsResolve_of_check (hnodup : grammar.nonterminals.Nodup)
    (h : grammar.check = .ok start) : Network.CallsResolve (grammar.machines start) := by
  intro machine hmachine state hstate call hcall
  obtain ⟨name, -, rfl⟩ := List.mem_map.mp hmachine
  obtain ⟨hcallee, hnone⟩ := resolves_of_check h hstate hcall
  exact ⟨(perm_names_machines hnodup (check_eq_ok h).2.1).mem_iff.mpr hcallee, hnone⟩

/-- With nonterminals that are declared once, a grammar that has passed its check compiles. -/
theorem compile_of_check (hnodup : grammar.nonterminals.Nodup) (h : grammar.check = .ok start) :
    ∃ network, grammar.compile = .ok { grammar, start, network } ∧
      network.machines = grammar.machines start := by
  have hstart : start ∈ (grammar.machines start).map (·.name) := by simp [names_machines]
  obtain ⟨network, hnetwork⟩ := Network.exists_ofMachines (nodup_names_machines hnodup start) hstart
    (callsResolve_of_check hnodup h)
  refine ⟨network, ?_, (Network.ofMachines_eq_ok hnetwork).1⟩
  rw [compile, h]
  dsimp only
  rw [hnetwork]

/-- So all that is reported of it is reported by the check. -/
theorem compile_eq_error_iff (hnodup : grammar.nonterminals.Nodup) {error : CompileError} :
    grammar.compile = .error error ↔ grammar.check = .error error := by
  cases hcheck : grammar.check with
  | ok start =>
      obtain ⟨network, hcompile, -⟩ := compile_of_check hnodup hcheck
      rw [hcompile]
      exact ⟨nofun, nofun⟩
  | error found => rw [compile, hcheck]; simp

theorem ruleError?_ne_network (grammar : Grammar) (rule : Rule) (error : NetworkError) :
    grammar.ruleError? rule ≠ some (.network error) := by
  intro h
  rw [ruleError?] at h
  split at h
  · obtain ⟨symbol, -, hsymbol⟩ := List.exists_of_findSome?_eq_some h
    cases symbol with
    | terminal name =>
        rw [symbolError?] at hsymbol
        split at hsymbol <;> cases hsymbol
    | nonterminal name =>
        rw [symbolError?] at hsymbol
        split at hsymbol <;> cases hsymbol
    | epsilon => cases hsymbol
  · cases h

/-- The check looks at the grammar alone. -/
theorem check_ne_network (grammar : Grammar) (error : NetworkError) :
    grammar.check ≠ .error (.network error) := by
  intro h
  rw [check] at h
  split at h
  · cases h
  · split at h
    · split at h
      · next found hfound =>
        cases h
        simp only [Option.orElse_eq_orElse, Option.orElse_eq_or, Option.or_eq_some_iff] at hfound
        rcases hfound with hclash | ⟨-, hrules | ⟨-, hbarren | ⟨-, hrecursion⟩⟩⟩
        · obtain ⟨name, -, hname⟩ := Option.map_eq_some_iff.mp hclash
          cases hname
        · obtain ⟨rule, -, hrule⟩ := List.exists_of_findSome?_eq_some hrules
          exact ruleError?_ne_network grammar rule error hrule
        · obtain ⟨name, -, hname⟩ := Option.map_eq_some_iff.mp hbarren
          cases hname
        · obtain ⟨name, -, hname⟩ := Option.map_eq_some_iff.mp hrecursion
          cases hname
      · cases h
    · cases h

/-- The network has one machine for each nonterminal, that of the start symbol first. -/
theorem machines_of_compile (hnodup : grammar.nonterminals.Nodup) {compiled : GrammarNetwork}
    (h : grammar.compile = .ok compiled) :
    (compiled.network.machines.map (·.name)).Perm grammar.nonterminals ∧
      grammar.start = some compiled.start ∧ compiled.network.start.name = compiled.start ∧
      compiled.network.machines.head? = some compiled.network.start := by
  obtain ⟨hcheck, hdescribes⟩ := describes_of_compile h
  obtain ⟨hstart, hdeclared, -⟩ := check_eq_ok hcheck
  obtain ⟨network, hcompile, hmachines⟩ := compile_of_check hnodup hcheck
  have hnetwork : compiled.network = network :=
    congrArg GrammarNetwork.network (Except.ok.inj (h.symm.trans hcompile))
  rw [← hnetwork] at hmachines
  refine ⟨?_, hstart, ?_, ?_⟩
  · rw [hmachines]
    exact perm_names_machines hnodup hdeclared
  · rw [hdescribes.start_eq, name_machine]
  · rw [hmachines, hdescribes.start_eq]
    rfl

end Grammar

end TransitionNetwork
