import TransitionNetwork.Proofs.RecorderJournal

/-! Going back to a mark of a builder. Behind the mark the builder may be given tokens, perform actions,
be marked again and be rewound, as long as it is not rewound below the mark. Such a builder still has the
edits since the mark on top of the journal from then (`Extends`): an action puts more on top, a rewind takes
some away. The mark therefore leads back to exactly the arena and the cursor that it was set at, even from
between two edits of one action. -/

namespace TransitionNetwork.Builder

/-- What a builder may be asked to do between a mark and the way back to it. -/
inductive Step
  | setToken (token : Token)
  | perform (action : Action) (machine : String)
  /-- To ask for a mark changes nothing. -/
  | mark
  | rewind (point : Nat)

def take (builder : Builder) : Step → Builder
  | .setToken token => builder.setToken token
  | .perform action machine => builder.perform action machine
  | .mark => builder
  | .rewind point => builder.rewind point

/-- Takes steps one after the other. -/
def run (builder : Builder) (steps : List Step) : Builder :=
  steps.foldl take builder

/-- A step that does not take back what was there before the mark. -/
def Step.StaysAbove (bound : Nat) : Step → Prop
  | .rewind point => bound ≤ point
  | _ => True

instance (bound : Nat) : DecidablePred (Step.StaysAbove bound)
  | .setToken _ => isTrue trivial
  | .perform _ _ => isTrue trivial
  | .mark => isTrue trivial
  | .rewind point => inferInstanceAs (Decidable (bound ≤ point))

variable {builder after : Builder}

/-- When some of the edits are undone, the others still lead back. -/
theorem LeadsBack.undo_some {target state : Tree × Nat} {edits : List Edit}
    (h : LeadsBack target state edits) (count : Nat) :
    LeadsBack target ((edits.take count).foldl undo state) (edits.drop count) := by
  induction count generalizing state edits with
  | zero => exact h
  | succ count ih =>
      cases edits with
      | nil => exact h
      | cons edit edits => exact ih h.2

theorem Extends.rewind (h : Extends builder after) {point : Nat} (hpoint : builder.mark ≤ point) :
    Extends builder (after.rewind point) := by
  obtain ⟨edits, hjournal, hback⟩ := h
  have hnewer : after.journal.length - point ≤ edits.length := by
    unfold mark at hpoint
    rw [hjournal, List.length_append]
    omega
  refine ⟨edits.drop (after.journal.length - point), ?_, ?_⟩
  · show after.journal.drop _ = _
    rw [hjournal, List.drop_append_of_le_length (by rwa [hjournal] at hnewer)]
  · have htake : after.journal.take (after.journal.length - point) =
        edits.take (after.journal.length - point) := by
      rw [hjournal, List.take_append_of_le_length (by rwa [hjournal] at hnewer)]
    show LeadsBack _ ((after.journal.take _).foldl undo _) _
    rw [htake]
    exact hback.undo_some _

theorem Extends.take (hvalid : builder.Valid) (h : Extends builder after) {step : Step}
    (hstep : step.StaysAbove builder.mark) : Extends builder (after.take step) := by
  cases step with
  | setToken token => exact h
  | perform action machine => exact h.trans (extends_perform (h.valid hvalid) action machine)
  | mark => exact h
  | rewind point => exact h.rewind hstep

theorem Extends.run (hvalid : builder.Valid) (h : Extends builder after) {steps : List Step}
    (hsteps : ∀ step ∈ steps, step.StaysAbove builder.mark) : Extends builder (after.run steps) := by
  induction steps generalizing after with
  | nil => exact h
  | cons step steps ih =>
      obtain ⟨hstep, hrest⟩ := List.forall_mem_cons.mp hsteps
      exact ih (h.take hvalid hstep) hrest

/-- Whatever a builder in use does above a mark, the mark leads back to the arena, the cursor and the
journal that it was set at; only the token at hand stays the last one. -/
theorem Reachable.rewind_run (h : builder.Reachable) {steps : List Step}
    (hsteps : ∀ step ∈ steps, step.StaysAbove builder.mark) :
    (builder.run steps).rewind builder.mark =
      { builder with token := (builder.run steps).token } :=
  ((Extends.refl builder).run h.valid hsteps).rewind_eq

/-- A leaf and two nodes inside each other, without anything in them yet. -/
def sketch : Builder :=
  ((((start "A").setToken ⟨"s", "the", []⟩).perform .leaf "A").perform .descend "B").perform .descend
    "C"

/-- Both empty nodes are detached, the second detachment is taken back halfway, so that the cursor stands
at a detached node, and a leaf is put there. -/
def detours : List Step :=
  [.perform .ascend "B", .perform .ascend "A", .mark, .perform .descend "D", .rewind 8,
    .setToken ⟨"v", "runs", []⟩, .perform .leaf "B", .perform .ascend "A"]

theorem sketch_rewind_detours :
    sketch.Reachable ∧ sketch.mark = 5 ∧ (∀ step ∈ detours, step.StaysAbove sketch.mark) ∧
      (sketch.run detours).tree.nodes.length = 5 ∧ (sketch.run detours).tree.parent? 2 = none ∧
      (sketch.run detours).cursor = 2 ∧
      (sketch.run detours).rewind 5 = { sketch with token := some ⟨"v", "runs", []⟩ } := by
  have hreachable : sketch.Reachable :=
    .perform (.perform (.perform (.setToken (.start "A") _) .leaf "A") .descend "B") .descend "C"
  have habove : ∀ step ∈ detours, step.StaysAbove sketch.mark := by decide
  exact ⟨hreachable, rfl, habove, by decide, by decide, by decide, hreachable.rewind_run habove⟩

end TransitionNetwork.Builder
