import TransitionNetwork.Proofs.CompiledNetwork
import TransitionNetwork.Proofs.GraphSearch

/-! Which calls are eligible. The search behind a call visits places along epsilon moves and calls. When
it fails, the places that it has visited lead to no other places and none of them welcomes the symbol, so
nothing is lost when they are left out for the next call. Hence a call is found exactly if its machine, or
that of another call of the state, can come to a place that welcomes the symbol. -/

namespace TransitionNetwork

namespace Network

variable {network : Network} {symbol : Option String}

/-- A machine that can come, by epsilon moves and calls, to a place that welcomes the symbol. -/
def Startable (network : Network) (symbol : Option String) (machine : String) : Prop :=
  ∃ place, Reaches network.successors (machine, 0) place ∧ network.welcomes symbol place = true

theorem mem_places {machine : Automaton} (hmachine : machine ∈ network.machines) {index : Nat}
    (hindex : index < machine.size) : (machine.name, index) ∈ network.places :=
  List.mem_flatMap.mpr ⟨machine, hmachine, List.mem_map.mpr ⟨index, List.mem_range.mpr hindex, rfl⟩⟩

theorem initial_mem_places {name : String} (h : name ∈ network.machines.map (·.name)) :
    (name, 0) ∈ network.places := by
  obtain ⟨machine, hmachine, rfl⟩ := List.mem_map.mp h
  exact mem_places hmachine machine.size_pos

theorem callee_mem_of_state {machine : Automaton} (hmachine : machine ∈ network.machines)
    {index : Nat} {call : Call} (hcall : call ∈ (machine.state index).calls) :
    call.callee ∈ network.machines.map (·.name) := by
  have hindex := Automaton.lt_size_of_target (State.target_mem_of_call hcall)
  exact network.callee_mem machine hmachine _ (Automaton.state_mem hindex) call hcall

/-- No move and no call leads out of a network. -/
theorem successors_mem_places {place successor : Place} (h : successor ∈ network.successors place) :
    successor ∈ network.places := by
  rw [successors, stateAt] at h
  cases hfound : network.machine? place.1 with
  | none =>
      rw [hfound] at h
      cases h
  | some machine =>
      rw [hfound] at h
      obtain ⟨hmachine, hname⟩ := mem_of_machine? hfound
      simp only [Option.map_some, Option.getD_some, List.mem_append, List.mem_map,
        Option.mem_toList] at h
      rcases h with ⟨call, hcall, rfl⟩ | ⟨epsilon, hepsilon, rfl⟩
      · exact initial_mem_places (callee_mem_of_state hmachine hcall)
      · rw [← hname]
        exact mem_places hmachine (machine.target_lt_size (State.target_mem_of_epsilon hepsilon))

theorem startable_of_canStart {machine : String} {seen : List Place}
    (h : (network.canStart symbol machine seen).1 = true) : network.Startable symbol machine := by
  obtain ⟨node, hnode, place, hreaches, hwelcome⟩ := reaches_of_explore _ _ h
  rw [List.mem_singleton.mp hnode] at hreaches
  exact ⟨place, hreaches, hwelcome⟩

/-- Places that have been searched in vain: none of them welcomes the symbol or leads to one that
does. -/
def Vain (network : Network) (symbol : Option String) (seen : List Place) : Prop :=
  Explored network.successors (network.welcomes symbol) network.places [] seen ∧
    ∀ place ∈ seen, place ∈ network.places

theorem vain_nil (network : Network) (symbol : Option String) : network.Vain symbol [] :=
  ⟨nofun, nofun⟩

theorem Vain.canStart {seen : List Place} (h : network.Vain symbol seen) {machine : String}
    (hmachine : machine ∈ network.machines.map (·.name))
    (hfailed : (network.canStart symbol machine seen).1 = false) :
    network.Vain symbol (network.canStart symbol machine seen).2 ∧
      ¬ network.Startable symbol machine := by
  have hpending : Explored network.successors (network.welcomes symbol) network.places
      [(machine, 0)] seen := h.1.replace nofun
  obtain ⟨hexplored, hinside, -, hvisited⟩ := explored_of_explore _ _ hpending h.2 hfailed
  refine ⟨⟨hexplored, hinside⟩, ?_⟩
  rintro ⟨place, hreaches, hwelcome⟩
  have hinitial := hvisited _ List.mem_cons_self (initial_mem_places hmachine)
  rw [hexplored.goal_of_reaches (fun _ _ _ => successors_mem_places) hinitial hreaches] at hwelcome
  cases hwelcome

/-- Places that were searched in vain do not change an answer. -/
theorem Vain.canStart_iff {seen : List Place} (h : network.Vain symbol seen) {name : String}
    (hname : name ∈ network.machines.map (·.name)) :
    (network.canStart symbol name seen).1 = true ↔ network.Startable symbol name := by
  refine ⟨startable_of_canStart, fun hstartable => ?_⟩
  by_contra hfailed
  rw [Bool.not_eq_true] at hfailed
  exact (h.canStart hname hfailed).2 hstartable

theorem Vain.not_startable {seen : List Place} (h : network.Vain symbol seen) {calls : List Call}
    (hcalls : ∀ call ∈ calls, call.callee ∈ network.machines.map (·.name))
    (hnone : network.eligibleCall? symbol calls seen = none) :
    ∀ call ∈ calls, ¬ network.Startable symbol call.callee := by
  induction calls generalizing seen with
  | nil => exact nofun
  | cons call calls ih =>
      rw [eligibleCall?] at hnone
      rcases hstart : network.canStart symbol call.callee seen with ⟨found, visited⟩
      rw [hstart] at hnone
      cases found with
      | true => cases hnone
      | false =>
          obtain ⟨hvain, hvisited⟩ := h.canStart (hcalls call List.mem_cons_self)
            (congrArg Prod.fst hstart)
          rw [hstart] at hvain
          intro other hother
          rcases List.mem_cons.mp hother with rfl | hother
          · exact hvisited
          · exact ih hvain (fun other hother => hcalls other (List.mem_cons_of_mem _ hother)) hnone
              other hother

/-- The call that is found has a machine that can start. -/
theorem startable_of_eligibleCall? {calls : List Call} {seen : List Place} {call : Call}
    (h : network.eligibleCall? symbol calls seen = some call) :
    call ∈ calls ∧ network.Startable symbol call.callee := by
  refine ⟨mem_of_eligibleCall? h, ?_⟩
  induction calls generalizing seen with
  | nil => cases h
  | cons other calls ih =>
      rw [eligibleCall?] at h
      split at h
      · next hstart =>
        cases h
        exact startable_of_canStart (congrArg Prod.fst hstart)
      · exact ih h

theorem eligibleCall?_eq_none {calls : List Call}
    (h : ∀ call ∈ calls, ¬ network.Startable symbol call.callee) :
    network.eligibleCall? symbol calls = none := by
  cases hfound : network.eligibleCall? symbol calls with
  | none => rfl
  | some call =>
      obtain ⟨hcall, hstartable⟩ := startable_of_eligibleCall? hfound
      exact absurd hstartable (h call hcall)

/-- If the machine of some call can start, a call is found. -/
theorem exists_eligibleCall? {calls : List Call}
    (hcalls : ∀ call ∈ calls, call.callee ∈ network.machines.map (·.name)) {call : Call}
    (hcall : call ∈ calls) (hstartable : network.Startable symbol call.callee) :
    ∃ found ∈ calls, network.eligibleCall? symbol calls = some found ∧
      network.Startable symbol found.callee := by
  cases hfound : network.eligibleCall? symbol calls with
  | none =>
      exact absurd hstartable ((vain_nil network symbol).not_startable hcalls hfound call hcall)
  | some found =>
      obtain ⟨hmem, hstarts⟩ := startable_of_eligibleCall? hfound
      exact ⟨found, hmem, rfl, hstarts⟩

end Network

end TransitionNetwork
