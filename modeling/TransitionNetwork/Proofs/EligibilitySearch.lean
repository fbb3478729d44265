import TransitionNetwork.Proofs.CallEligibility
import Mathlib.Data.List.Find

/-! The search for an eligible call is plain reachability. The search keeps the places that it has visited,
answers no when it comes back to one of them, and hands them on from one call of a state to the next. None
of this changes an answer: a call is eligible exactly if its machine can come to a place that welcomes the
symbol, and the first eligible call is found. The recursion behind the search has no bound of its own
(`DepthFirst`); since every visit is to a new place of the network it comes to an end all the same, also in
networks whose machines call themselves or move in cycles. -/

namespace TransitionNetwork

/-! ### The recursion -/

/-- Depth-first search as a recursion on nodes that stand side by side. A node that was visited is left
alone; any other is visited, and after it what it leads to, before the next node has its turn. The search
ends with the first node that has the wanted property. -/
inductive DepthFirst {α : Type} (next : α → List α) (goal : α → Bool) :
    (pending seen : List α) → (found : Bool) → (visited : List α) → Prop
  | done {seen : List α} : DepthFirst next goal [] seen false seen
  | skip {node : α} {pending seen visited : List α} {found : Bool} (hseen : node ∈ seen)
      (hrest : DepthFirst next goal pending seen found visited) :
      DepthFirst next goal (node :: pending) seen found visited
  | found {node : α} {pending seen : List α} (hnew : node ∉ seen) (hgoal : goal node = true) :
      DepthFirst next goal (node :: pending) seen true (node :: seen)
  | deeper {node : α} {pending seen visited : List α} (hnew : node ∉ seen)
      (hgoal : goal node = false)
      (hbelow : DepthFirst next goal (next node) (node :: seen) true visited) :
      DepthFirst next goal (node :: pending) seen true visited
  | across {node : α} {pending seen middle visited : List α} {found : Bool} (hnew : node ∉ seen)
      (hgoal : goal node = false)
      (hbelow : DepthFirst next goal (next node) (node :: seen) false middle)
      (hrest : DepthFirst next goal pending middle found visited) :
      DepthFirst next goal (node :: pending) seen found visited

section

variable {α : Type} {next : α → List α} {goal : α → Bool} {nodes pending seen visited : List α}
  {found : Bool}

theorem DepthFirst.unique (h : DepthFirst next goal pending seen found visited) {found' : Bool}
    {visited' : List α} (h' : DepthFirst next goal pending seen found' visited') :
    found = found' ∧ visited = visited' := by
  induction h generalizing found' visited' with
  | done =>
      cases h' with
      | done => exact ⟨rfl, rfl⟩
  | skip hseen _ ih =>
      cases h' with
      | skip _ hrest => exact ih hrest
      | found hnew => exact absurd hseen hnew
      | deeper hnew => exact absurd hseen hnew
      | across hnew => exact absurd hseen hnew
  | found hnew hgoal =>
      cases h' with
      | skip hseen => exact absurd hseen hnew
      | found => exact ⟨rfl, rfl⟩
      | deeper _ hgoal' => simp [hgoal] at hgoal'
      | across _ hgoal' => simp [hgoal] at hgoal'
  | deeper hnew hgoal _ ih =>
      cases h' with
      | skip hseen => exact absurd hseen hnew
      | found _ hgoal' => simp [hgoal] at hgoal'
      | deeper _ _ hbelow => exact ih hbelow
      | across _ _ hbelow => exact absurd (ih hbelow).1 (by decide)
  | across hnew hgoal _ _ ihbelow ihrest =>
      cases h' with
      | skip hseen => exact absurd hseen hnew
      | found _ hgoal' => simp [hgoal] at hgoal'
      | deeper _ _ hbelow => exact absurd (ihbelow hbelow).1 (by decide)
      | across _ _ hbelow hrest =>
          obtain ⟨-, rfl⟩ := ihbelow hbelow
          exact ihrest hrest

/-- A search from two groups of nodes ends in the first group or goes on from it to the second. -/
theorem DepthFirst.append_cases {left right : List α}
    (h : DepthFirst next goal (left ++ right) seen found visited) :
    (found = true ∧ DepthFirst next goal left seen true visited) ∨
      ∃ middle, DepthFirst next goal left seen false middle ∧
        DepthFirst next goal right middle found visited := by
  induction left generalizing seen with
  | nil => exact .inr ⟨seen, .done, h⟩
  | cons node left ih =>
      cases h with
      | skip hseen hrest =>
          rcases ih hrest with ⟨hfound, hleft⟩ | ⟨middle, hleft, hright⟩
          · exact .inl ⟨hfound, .skip hseen hleft⟩
          · exact .inr ⟨middle, .skip hseen hleft, hright⟩
      | found hnew hgoal => exact .inl ⟨rfl, .found hnew hgoal⟩
      | deeper hnew hgoal hbelow => exact .inl ⟨rfl, .deeper hnew hgoal hbelow⟩
      | across hnew hgoal hbelow hrest =>
          rcases ih hrest with ⟨hfound, hleft⟩ | ⟨middle, hleft, hright⟩
          · exact .inl ⟨hfound, .across hnew hgoal hbelow hleft⟩
          · exact .inr ⟨middle, .across hnew hgoal hbelow hleft, hright⟩

/-- Where no edge leads outside, the search is the recursion. -/
theorem depthFirst_explore [DecidableEq α] (hclosed : ∀ node, ∀ successor ∈ next node, successor ∈ nodes)
    (hpending : ∀ node ∈ pending, node ∈ nodes) :
    DepthFirst next goal pending seen (explore next goal nodes pending seen).1
      (explore next goal nodes pending seen).2 := by
  fun_induction explore next goal nodes pending seen with
  | case1 seen => exact .done
  | case2 node pending seen hskip ih =>
      have hseen := hskip.resolve_right (not_not_intro (hpending node List.mem_cons_self))
      exact .skip hseen (ih fun other hother => hpending other (List.mem_cons_of_mem _ hother))
  | case3 node pending seen hvisit hgoal => exact .found (not_or.mp hvisit).1 hgoal
  | case4 node pending seen hvisit hgoal ih =>
      have hnew := (not_or.mp hvisit).1
      rw [Bool.not_eq_true] at hgoal
      have hnodes : ∀ other ∈ next node ++ pending, other ∈ nodes := by
        intro other hother
        rcases List.mem_append.mp hother with hedge | hrest
        · exact hclosed node other hedge
        · exact hpending other (List.mem_cons_of_mem _ hrest)
      rcases (ih hnodes).append_cases with ⟨hfound, hbelow⟩ | ⟨middle, hbelow, hrest⟩
      · rw [hfound]
        exact .deeper hnew hgoal hbelow
      · exact .across hnew hgoal hbelow hrest

end

/-! ### The first eligible call -/

namespace Network

variable {network : Network} {symbol : Option String} {seen : List Place}

theorem depthFirst_iff_canStart {name : String} (hname : name ∈ network.machines.map (·.name))
    {found : Bool} {visited : List Place} :
    DepthFirst network.successors (network.welcomes symbol) [(name, 0)] seen found visited ↔
      network.canStart symbol name seen = (found, visited) := by
  have hsearch : DepthFirst network.successors (network.welcomes symbol) [(name, 0)] seen
      (network.canStart symbol name seen).1 (network.canStart symbol name seen).2 := by
    refine depthFirst_explore (fun _ _ => successors_mem_places) fun node hnode => ?_
    rw [List.mem_singleton.mp hnode]
    exact initial_mem_places hname
  constructor
  · intro h
    obtain ⟨hfound, hvisited⟩ := hsearch.unique h
    exact Prod.ext hfound hvisited
  · intro h
    rw [h] at hsearch
    exact hsearch

/-- Every call may as well be searched for by itself. -/
theorem Vain.eligibleCall?_eq_find? (h : network.Vain symbol seen) {calls : List Call}
    (hcalls : ∀ call ∈ calls, call.callee ∈ network.machines.map (·.name)) :
    network.eligibleCall? symbol calls seen =
      calls.find? fun call => (network.canStart symbol call.callee []).1 := by
  induction calls generalizing seen with
  | nil => rfl
  | cons call calls ih =>
      have hcallee := hcalls call List.mem_cons_self
      have hsame : (network.canStart symbol call.callee seen).1 =
          (network.canStart symbol call.callee []).1 := by
        rw [Bool.eq_iff_iff, h.canStart_iff hcallee, (vain_nil network symbol).canStart_iff hcallee]
      rw [eligibleCall?, List.find?_cons, ← hsame]
      rcases hstart : network.canStart symbol call.callee seen with ⟨found, visited⟩
      cases found with
      | true => rfl
      | false =>
          have hvisited := (h.canStart hcallee (congrArg Prod.fst hstart)).1
          rw [hstart] at hvisited
          exact ih hvisited fun other hother => hcalls other (List.mem_cons_of_mem _ hother)

/-- The lookahead finds the first call of a state whose machine can come, by epsilon moves and calls, to a
place that welcomes the symbol, and none if there is no such call. It finds what separate searches would
find, and each of them is the plain recursion, which has an answer whatever was visited before. -/
theorem lookahead_finds_first {machine : Automaton} (hmachine : machine ∈ network.machines) (index : Nat)
    (symbol : Option String) :
    (∀ call, network.eligibleCall? symbol (machine.state index).calls = some call ↔
        ∃ before after, (machine.state index).calls = before ++ call :: after ∧
          network.Startable symbol call.callee ∧
          ∀ other ∈ before, ¬ network.Startable symbol other.callee) ∧
      (network.eligibleCall? symbol (machine.state index).calls = none ↔
        ∀ call ∈ (machine.state index).calls, ¬ network.Startable symbol call.callee) ∧
      network.eligibleCall? symbol (machine.state index).calls =
        (machine.state index).calls.find? (fun call => (network.canStart symbol call.callee []).1) ∧
      ∀ call ∈ (machine.state index).calls, ∀ seen found visited,
        DepthFirst network.successors (network.welcomes symbol) [(call.callee, 0)] seen found visited ↔
          network.canStart symbol call.callee seen = (found, visited) := by
  have hcallees : ∀ call ∈ (machine.state index).calls,
      call.callee ∈ network.machines.map (·.name) := fun _ => callee_mem_of_state hmachine
  have hvain := vain_nil network symbol
  have hfind := hvain.eligibleCall?_eq_find? hcallees
  classical
  have hreach : network.eligibleCall? symbol (machine.state index).calls =
      (machine.state index).calls.find? fun call => decide (network.Startable symbol call.callee) := by
    rw [hfind]
    refine List.find?_congr fun call hcall => ?_
    rw [Bool.eq_iff_iff, decide_eq_true_iff]
    exact hvain.canStart_iff (hcallees call hcall)
  refine ⟨fun call => ?_, ?_, hfind,
    fun call hcall _ _ _ => depthFirst_iff_canStart (hcallees call hcall)⟩
  · rw [hreach, List.find?_eq_some_iff_append]
    simp only [decide_eq_true_eq, Bool.not_eq_true', decide_eq_false_iff_not]
    constructor
    · rintro ⟨hstartable, before, after, hcalls, hbefore⟩
      exact ⟨before, after, hcalls, hstartable, hbefore⟩
    · rintro ⟨before, after, hcalls, hstartable, hbefore⟩
      exact ⟨hstartable, before, after, hcalls, hbefore⟩
  · rw [hreach, List.find?_eq_none]
    simp only [decide_eq_true_eq]

/-- The machine `B` calls itself and moves in a cycle, and `D` calls `B` before anything else. -/
def circling : Network :=
  let first := (((Automaton.single "A").addState "end").addCall
    { source := 0, target := 1, callee := "B" }).addCall { source := 0, target := 1, callee := "D" }
  { machines := [first,
      (((((Automaton.single "B").addState "end").addCall
        { source := 0, target := 1, callee := "B" }).setEpsilon 0 1).setEpsilon 1 0),
      (((Automaton.single "D").addState "end").addCall
        { source := 0, target := 1, callee := "B" }).addTransition ⟨0, 1, ["x"], none⟩]
    start := first
    start_mem := List.mem_cons_self
    names_nodup := by decide
    callee_mem := by decide
    callee_apart := by decide }

/-- The search for `B` ends in vain though it comes back to where it began. The call of `D` is found behind
it, with what `B` leads to already visited. -/
theorem circling_first :
    DepthFirst circling.successors (circling.welcomes (some "x")) [("B", 0)] [] false
        [("B", 1), ("B", 0)] ∧
      ∃ before after, (circling.start.state 0).calls =
          before ++ { source := 0, target := 1, callee := "D" } :: after ∧
        circling.Startable (some "x") "D" ∧
        ∀ other ∈ before, ¬ circling.Startable (some "x") other.callee := by
  have hvain : circling.canStart (some "x") "B" [] = (false, [("B", 1), ("B", 0)]) := by cbv
  have hfound : circling.eligibleCall? (some "x") (circling.start.state 0).calls =
      some { source := 0, target := 1, callee := "D" } := by cbv
  obtain ⟨hfirst, -, -, hsearch⟩ := lookahead_finds_first circling.start_mem 0 (some "x")
  exact ⟨(hsearch { source := 0, target := 1, callee := "B" } List.mem_cons_self _ _ _).mpr hvain,
    (hfirst _).mp hfound⟩

end Network

end TransitionNetwork
