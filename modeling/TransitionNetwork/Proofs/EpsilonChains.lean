import TransitionNetwork.Proofs.CallChain

/-! Chains of epsilon moves. A state has at most one epsilon move, so the moves from a state form one chain.
Such a chain comes to a first state that is wanted or has no epsilon move, or it runs in a cycle for ever. A
chain that ends passes no state twice, because from the same state it would go on in the same way; hence it
is shorter than the number of states. That number bounds the epsilon moves that are made for an input and
those of a closure, so the bound stops only chains that do not end. -/

namespace TransitionNetwork

namespace Automaton

variable {automaton : Automaton} {wanted : State → Bool} {source target : Nat}
  {path : List Transition}

/-- The epsilon moves that lead from one state to another. -/
inductive EpsilonChain (automaton : Automaton) : Nat → List Transition → Nat → Prop
  | refl (index : Nat) : EpsilonChain automaton index [] index
  | step {index target : Nat} {epsilon : Transition} {path : List Transition}
      (hepsilon : (automaton.state index).epsilon = some epsilon)
      (hpath : EpsilonChain automaton epsilon.target path target) :
      EpsilonChain automaton index (epsilon :: path) target

/-- The epsilon moves that lead from a state to the first one that is wanted or has no epsilon move. -/
inductive ChainEnds (automaton : Automaton) (wanted : State → Bool) :
    Nat → List Transition → Nat → Prop
  | here {index : Nat}
      (hends : wanted (automaton.state index) = true ∨ (automaton.state index).epsilon = none) :
      ChainEnds automaton wanted index [] index
  | step {index target : Nat} {epsilon : Transition} {path : List Transition}
      (hunwanted : wanted (automaton.state index) = false)
      (hepsilon : (automaton.state index).epsilon = some epsilon)
      (hpath : ChainEnds automaton wanted epsilon.target path target) :
      ChainEnds automaton wanted index (epsilon :: path) target

namespace ChainEnds

theorem chain (h : automaton.ChainEnds wanted source path target) :
    automaton.EpsilonChain source path target := by
  induction h with
  | here => exact .refl _
  | step _ hepsilon _ ih => exact .step hepsilon ih

theorem ends (h : automaton.ChainEnds wanted source path target) :
    wanted (automaton.state target) = true ∨ (automaton.state target).epsilon = none := by
  induction h with
  | here hends => exact hends
  | step _ _ _ ih => exact ih

theorem path_unique (h : automaton.ChainEnds wanted source path target) {other : Nat}
    {path' : List Transition} (h' : automaton.ChainEnds wanted source path' other) :
    path = path' := by
  induction h generalizing path' other with
  | here hends =>
      cases h' with
      | here => rfl
      | step hunwanted hepsilon _ => simp [hunwanted, hepsilon] at hends
  | step hunwanted hepsilon _ ih =>
      cases h' with
      | here hends => simp [hunwanted, hepsilon] at hends
      | step _ hepsilon' hpath' =>
          rw [hepsilon] at hepsilon'
          cases hepsilon'
          rw [ih hpath']

/-- From every state that a chain passes the rest of it leads to its end. -/
theorem rest (h : automaton.ChainEnds wanted source path target) {passed : Nat}
    (hpassed : passed ∈ source :: path.map (·.target)) :
    ∃ rest, rest.length ≤ path.length ∧ automaton.ChainEnds wanted passed rest target := by
  induction h with
  | here hends =>
      rw [List.mem_singleton.mp hpassed]
      exact ⟨[], Nat.le_refl _, .here hends⟩
  | step hunwanted hepsilon hpath ih =>
      rcases List.mem_cons.mp hpassed with rfl | hlater
      · exact ⟨_, Nat.le_refl _, .step hunwanted hepsilon hpath⟩
      · obtain ⟨rest, hlength, hrest⟩ := ih hlater
        exact ⟨rest, by simp only [List.length_cons]; omega, hrest⟩

/-- A chain that comes back to a state never ends. -/
theorem nodup (h : automaton.ChainEnds wanted source path target) :
    (source :: path.map (·.target)).Nodup := by
  induction h with
  | here => exact List.nodup_singleton _
  | step hunwanted hepsilon hpath ih =>
      refine List.nodup_cons.mpr ⟨fun hagain => ?_, ih⟩
      -- The way to the end from the second visit is shorter than from the first, but both are the same.
      obtain ⟨rest, hlength, hrest⟩ := hpath.rest hagain
      rw [hrest.path_unique (.step hunwanted hepsilon hpath), List.length_cons] at hlength
      omega

/-- A chain inside a cycle of states that are not wanted does not end. -/
theorem not_of_closed {members : List Nat}
    (hclosed : ∀ index ∈ members, wanted (automaton.state index) = false ∧
      ∃ epsilon ∈ (automaton.state index).epsilon, epsilon.target ∈ members)
    (hsource : source ∈ members) : ¬ automaton.ChainEnds wanted source path target := by
  intro h
  induction h with
  | here hends =>
      obtain ⟨hunwanted, epsilon, hepsilon, -⟩ := hclosed _ hsource
      rw [hunwanted, Option.mem_def.mp hepsilon] at hends
      simp at hends
  | step _ hepsilon _ ih =>
      obtain ⟨-, epsilon, hepsilon', htarget⟩ := hclosed _ hsource
      rw [hepsilon] at hepsilon'
      cases hepsilon'
      exact ih htarget

end ChainEnds

theorem EpsilonChain.targets_lt_size (h : automaton.EpsilonChain source path target) :
    ∀ passed ∈ path.map (·.target), passed < automaton.size := by
  induction h with
  | refl => exact nofun
  | step hepsilon _ ih =>
      intro passed hpassed
      rcases List.mem_cons.mp hpassed with rfl | hlater
      · exact automaton.target_lt_size (State.target_mem_of_epsilon hepsilon)
      · exact ih passed hlater

/-- A chain that ends has fewer moves than there are states. -/
theorem ChainEnds.length_lt_size (h : automaton.ChainEnds wanted source path target) :
    path.length < automaton.size := by
  cases h with
  | here => exact automaton.size_pos
  | @step _ _ epsilon path hunwanted hepsilon hpath =>
      have hchain : automaton.ChainEnds wanted source (epsilon :: path) target :=
        .step hunwanted hepsilon hpath
      have hsubset : source :: (epsilon :: path).map (·.target) ⊆ List.range automaton.size := by
        intro passed hpassed
        rw [List.mem_range]
        rcases List.mem_cons.mp hpassed with rfl | hlater
        · exact lt_size_of_target (State.target_mem_of_epsilon hepsilon)
        · exact hchain.chain.targets_lt_size passed hlater
      have hlength := hchain.nodup.length_le_of_subset hsubset
      simp only [List.length_cons, List.length_map, List.length_range] at hlength ⊢
      omega

/-- A chain that does not end goes on from every state by an epsilon move. -/
theorem epsilon_of_not_chainEnds
    (h : ¬ ∃ path target, automaton.ChainEnds wanted source path target) :
    wanted (automaton.state source) = false ∧
      ∃ epsilon, (automaton.state source).epsilon = some epsilon ∧
        ¬ ∃ path target, automaton.ChainEnds wanted epsilon.target path target := by
  have hunwanted : wanted (automaton.state source) = false := by
    by_contra hwanted
    exact h ⟨[], source, .here (.inl (Bool.not_eq_false _ ▸ hwanted))⟩
  refine ⟨hunwanted, ?_⟩
  cases hepsilon : (automaton.state source).epsilon with
  | none => exact absurd ⟨[], source, .here (.inr hepsilon)⟩ h
  | some epsilon =>
      refine ⟨epsilon, rfl, ?_⟩
      rintro ⟨path, target, hpath⟩
      exact h ⟨epsilon :: path, target, .step hunwanted hepsilon hpath⟩

end Automaton

/-- Performs the actions of some moves of a machine, one after the other. -/
def recordAll {σ : Type} [Recorder σ] (path : List Transition) (machine : String) (recorder : σ) : σ :=
  path.foldl (fun recorder transition => record transition.action machine recorder) recorder

namespace Cursor

open Automaton

variable {σ : Type} [Recorder σ] {automaton : Automaton} {index target : Nat}
  {path : List Transition}

/-! ### Inputs -/

/-- Takes the first terminal transition on an input or, failing that, the alternate move. A cursor that
has neither stays. -/
def takeOrStay (cursor : Cursor) (input : String) (recorder : σ) : Bool × Cursor × σ :=
  match (cursor.current.transition? input).or cursor.current.alternate with
  | some transition => (true, cursor.move transition.target transition.action recorder)
  | none => (false, cursor, recorder)

theorem applyWithin_of_ends {input : String}
    (h : (automaton.state index).hasTransition input = true ∨ (automaton.state index).epsilon = none)
    (moves : Nat) (recorder : σ) :
    applyWithin input moves ⟨automaton, index⟩ recorder =
      takeOrStay ⟨automaton, index⟩ input recorder := by
  rw [applyWithin.eq_def, takeOrStay, current]
  cases htransition : (automaton.state index).transition? input with
  | some transition => rfl
  | none =>
      have hepsilon : (automaton.state index).epsilon = none := by
        simpa [State.hasTransition, htransition] using h
      cases (automaton.state index).alternate with
      | none => simp [hepsilon]
      | some alternate => simp [hepsilon]

theorem applyWithin_succ {input : String} {epsilon : Transition}
    (hunwanted : (automaton.state index).hasTransition input = false)
    (hepsilon : (automaton.state index).epsilon = some epsilon) (moves : Nat) (recorder : σ) :
    applyWithin input (moves + 1) ⟨automaton, index⟩ recorder =
      applyWithin input moves ⟨automaton, epsilon.target⟩
        (record epsilon.action automaton.name recorder) := by
  have htransition : (automaton.state index).transition? input = none := by
    simpa [State.hasTransition] using hunwanted
  rw [applyWithin, current, htransition, hepsilon]
  rfl

/-- With moves enough for the chain, an input is tried at its end. -/
theorem applyWithin_of_chainEnds {input : String}
    (h : automaton.ChainEnds (·.hasTransition input) index path target) {moves : Nat}
    (hmoves : path.length ≤ moves) (recorder : σ) :
    applyWithin input moves ⟨automaton, index⟩ recorder =
      takeOrStay ⟨automaton, target⟩ input (recordAll path automaton.name recorder) := by
  induction h generalizing moves recorder with
  | here hends => exact applyWithin_of_ends hends moves recorder
  | step hunwanted hepsilon _ ih =>
      cases moves with
      | zero => simp at hmoves
      | succ moves =>
          rw [List.length_cons] at hmoves
          rw [applyWithin_succ hunwanted hepsilon, ih (by omega)]
          rfl

/-- Along a chain that does not end all moves are made, to no avail. -/
theorem applyWithin_of_not_chainEnds {input : String}
    (h : ¬ ∃ path target, automaton.ChainEnds (·.hasTransition input) index path target)
    (moves : Nat) (recorder : σ) :
    ∃ path target, automaton.EpsilonChain index path target ∧ path.length = moves ∧
      applyWithin input moves ⟨automaton, index⟩ recorder =
        (false, ⟨automaton, target⟩, recordAll path automaton.name recorder) := by
  induction moves generalizing index recorder with
  | zero =>
      obtain ⟨hunwanted, epsilon, hepsilon, -⟩ := epsilon_of_not_chainEnds h
      have htransition : (automaton.state index).transition? input = none := by
        simpa [State.hasTransition] using hunwanted
      refine ⟨[], index, .refl index, rfl, ?_⟩
      rw [applyWithin, current, htransition, hepsilon]
      rfl
  | succ moves ih =>
      obtain ⟨hunwanted, epsilon, hepsilon, hnext⟩ := epsilon_of_not_chainEnds h
      obtain ⟨path, target, hchain, hlength, happly⟩ :=
        ih hnext (record epsilon.action automaton.name recorder)
      refine ⟨epsilon :: path, target, .step hepsilon hchain, by simp [hlength], ?_⟩
      rw [applyWithin_succ hunwanted hepsilon, happly]
      rfl

/-- An input is tried at the end of the chain of epsilon moves, behind the actions of the chain. Along a
chain that does not end it is not consumed, after one epsilon move for each state of the automaton. No
bound from there on gives another answer, and the cursor stays at a state of its automaton. -/
theorem apply_follows_chain (cursor : Cursor) (hstate : cursor.state < cursor.automaton.size)
    (input : String) (recorder : σ) :
    (∀ path target, cursor.automaton.ChainEnds (·.hasTransition input) cursor.state path target →
        cursor.apply input recorder =
          takeOrStay ⟨cursor.automaton, target⟩ input (recordAll path cursor.machine recorder)) ∧
      ((¬ ∃ path target, cursor.automaton.ChainEnds (·.hasTransition input) cursor.state path target) →
        ∃ path target, cursor.automaton.EpsilonChain cursor.state path target ∧
          path.length = cursor.automaton.size ∧
          cursor.apply input recorder =
            (false, ⟨cursor.automaton, target⟩, recordAll path cursor.machine recorder)) ∧
      (∀ moves, cursor.automaton.size ≤ moves →
        (cursor.applyWithin input moves recorder).1 = (cursor.apply input recorder).1) ∧
      (cursor.apply input recorder).2.1.automaton = cursor.automaton ∧
      (cursor.apply input recorder).2.1.state < cursor.automaton.size := by
  refine ⟨fun path target hends => ?_, fun hendless => ?_, fun moves hmoves => ?_, ?_⟩
  · exact applyWithin_of_chainEnds hends (Nat.le_of_lt hends.length_lt_size) recorder
  · exact applyWithin_of_not_chainEnds hendless cursor.automaton.size recorder
  · by_cases hends :
      ∃ path target, cursor.automaton.ChainEnds (·.hasTransition input) cursor.state path target
    · obtain ⟨path, target, hends⟩ := hends
      have hlength := Nat.le_of_lt hends.length_lt_size
      have hmore := applyWithin_of_chainEnds hends (Nat.le_trans hlength hmoves) recorder
      exact congrArg Prod.fst (hmore.trans (applyWithin_of_chainEnds hends hlength recorder).symm)
    · obtain ⟨_, _, -, -, hmore⟩ := applyWithin_of_not_chainEnds hends moves recorder
      obtain ⟨_, _, -, -, happly⟩ :=
        applyWithin_of_not_chainEnds hends cursor.automaton.size recorder
      exact (congrArg Prod.fst hmore).trans (congrArg Prod.fst happly).symm
  · exact applyWithin_lt_size input cursor.automaton.size cursor recorder hstate

/-- A chain that leads into a cycle. The second state of the cycle takes a symbol. -/
def lasso : Automaton :=
  ((((((Automaton.single "M").addState "near").addState "far").addState "end").setEpsilon 0 1
    (some .descend)).setEpsilon 1 2 (some .leaf)).setEpsilon 2 1 (some .ascend)
    |>.addTransition ⟨2, 3, ["x"], some .leaf⟩

/-- The symbol is found in the cycle; without it four moves are made, the last one inside the cycle. -/
theorem lasso_apply :
    (start lasso).apply "x" ({} : Log) =
        (true, ⟨lasso, 3⟩, ⟨[(.descend, "M"), (.leaf, "M"), (.leaf, "M")]⟩) ∧
      ∃ path target, lasso.EpsilonChain 0 path target ∧ path.length = 4 ∧
        (start lasso).apply "y" ({} : Log) =
          (false, ⟨lasso, target⟩, recordAll path "M" ({} : Log)) := by
  have hends : lasso.ChainEnds (·.hasTransition "x") 0 [.epsilon 0 1 (some .descend),
      .epsilon 1 2 (some .leaf)] 2 :=
    .step (by decide) (by decide) (.step (by decide) (by decide) (.here (by decide)))
  have hendless : ¬ ∃ path target, lasso.ChainEnds (·.hasTransition "y") 0 path target := by
    rintro ⟨path, target, hchain⟩
    have hclosed : ∀ index ∈ [0, 1, 2], (lasso.state index).hasTransition "y" = false ∧
        ∃ epsilon ∈ (lasso.state index).epsilon, epsilon.target ∈ [0, 1, 2] := by decide
    exact ChainEnds.not_of_closed hclosed (by decide) hchain
  exact ⟨(apply_follows_chain (start lasso) (by decide) "x" ({} : Log)).1 _ _ hends,
    (apply_follows_chain (start lasso) (by decide) "y" ({} : Log)).2.1 hendless⟩

/-! ### Closures -/

theorem epsilonPath_of_chainEnds (h : automaton.ChainEnds (·.isAccept) index path target)
    {moves : Nat} (hmoves : path.length ≤ moves) :
    epsilonPath automaton moves index = some path := by
  induction h generalizing moves with
  | here hends =>
      rw [epsilonPath.eq_def]
      rcases hends with haccept | hepsilon
      · simp [haccept]
      · simp [hepsilon]
  | step hunwanted hepsilon _ ih =>
      cases moves with
      | zero => simp at hmoves
      | succ moves =>
          rw [List.length_cons] at hmoves
          simp [epsilonPath, hunwanted, hepsilon, ih (show _ ≤ moves by omega)]

theorem epsilonPath_of_not_chainEnds
    (h : ¬ ∃ path target, automaton.ChainEnds (·.isAccept) index path target) (moves : Nat) :
    epsilonPath automaton moves index = none := by
  induction moves generalizing index with
  | zero =>
      obtain ⟨hunwanted, epsilon, hepsilon, -⟩ := epsilon_of_not_chainEnds h
      simp [epsilonPath, hunwanted, hepsilon]
  | succ moves ih =>
      obtain ⟨hunwanted, epsilon, hepsilon, hnext⟩ := epsilon_of_not_chainEnds h
      simp [epsilonPath, hunwanted, hepsilon, ih hnext]

theorem foldl_move (h : automaton.EpsilonChain index path target) (recorder : σ) :
    path.foldl (fun (place : Cursor × σ) epsilon =>
        place.1.move epsilon.target epsilon.action place.2) (⟨automaton, index⟩, recorder) =
      (⟨automaton, target⟩, recordAll path automaton.name recorder) := by
  induction h generalizing recorder with
  | refl => rfl
  | step _ _ ih => exact ih _

theorem epsilonClosure_of_chainEnds (cursor : Cursor)
    (h : cursor.automaton.ChainEnds (·.isAccept) cursor.state path target) (recorder : σ) :
    cursor.epsilonClosure recorder = ((cursor.automaton.state target).isAccept,
      ⟨cursor.automaton, target⟩, recordAll path cursor.machine recorder) := by
  rw [epsilonClosure, epsilonPath_of_chainEnds h (Nat.le_of_lt h.length_lt_size)]
  dsimp only
  rw [foldl_move h.chain]
  rfl

theorem epsilonClosure_of_not_chainEnds {cursor : Cursor}
    (h : ¬ ∃ path target, cursor.automaton.ChainEnds (·.isAccept) cursor.state path target)
    (recorder : σ) : cursor.epsilonClosure recorder = (cursor.atAccept, cursor, recorder) := by
  rw [epsilonClosure, epsilonPath_of_not_chainEnds h]

/-- The closure goes to the end of the chain of epsilon moves and performs its actions, or stays if the chain
does not end, and answers whether the cursor is at an accept state then. A second one changes nothing. -/
theorem epsilonClosure_follows_chain (cursor : Cursor) (recorder : σ) :
    (∀ path target, cursor.automaton.ChainEnds (·.isAccept) cursor.state path target →
        cursor.epsilonClosure recorder = ((cursor.automaton.state target).isAccept,
          ⟨cursor.automaton, target⟩, recordAll path cursor.machine recorder)) ∧
      ((¬ ∃ path target, cursor.automaton.ChainEnds (·.isAccept) cursor.state path target) →
        cursor.epsilonClosure recorder = (cursor.current.isAccept, cursor, recorder)) ∧
      ∀ again : σ, (cursor.epsilonClosure recorder).2.1.epsilonClosure again =
        ((cursor.epsilonClosure recorder).1, (cursor.epsilonClosure recorder).2.1, again) := by
  refine ⟨fun path target h => epsilonClosure_of_chainEnds cursor h recorder,
    fun h => epsilonClosure_of_not_chainEnds h recorder, fun again => ?_⟩
  by_cases h : ∃ path target, cursor.automaton.ChainEnds (·.isAccept) cursor.state path target
  · obtain ⟨path, target, h⟩ := h
    have hsettled : cursor.automaton.ChainEnds (·.isAccept) target [] target := .here h.ends
    rw [epsilonClosure_of_chainEnds cursor h]
    exact epsilonClosure_of_chainEnds ⟨cursor.automaton, target⟩ hsettled again
  · rw [epsilonClosure_of_not_chainEnds h]
    exact epsilonClosure_of_not_chainEnds h again

/-- The chain of the lasso has no end; with an accept state in the cycle it ends there. -/
theorem lasso_epsilonClosure :
    (start lasso).epsilonClosure ({} : Log) = (false, start lasso, {}) ∧
      (start (lasso.setKind 2 .accept)).epsilonClosure ({} : Log) =
        (true, ⟨lasso.setKind 2 .accept, 2⟩, ⟨[(.descend, "M"), (.leaf, "M")]⟩) := by
  have hendless : ¬ ∃ path target, lasso.ChainEnds (·.isAccept) 0 path target := by
    rintro ⟨path, target, hchain⟩
    have hclosed : ∀ index ∈ [0, 1, 2], (lasso.state index).isAccept = false ∧
        ∃ epsilon ∈ (lasso.state index).epsilon, epsilon.target ∈ [0, 1, 2] := by decide
    exact ChainEnds.not_of_closed hclosed (by decide) hchain
  have hends : (lasso.setKind 2 .accept).ChainEnds (·.isAccept) 0
      [.epsilon 0 1 (some .descend), .epsilon 1 2 (some .leaf)] 2 :=
    .step (by decide) (by decide) (.step (by decide) (by decide) (.here (by decide)))
  exact ⟨(epsilonClosure_follows_chain (start lasso) ({} : Log)).2.1 hendless,
    (epsilonClosure_follows_chain (start (lasso.setKind 2 .accept)) ({} : Log)).1 _ _ hends⟩

end Cursor

end TransitionNetwork
