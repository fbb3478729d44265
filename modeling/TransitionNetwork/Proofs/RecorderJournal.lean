import TransitionNetwork.Tree.Builder
import TransitionNetwork.Proofs.TreeArena
import Mathlib.Logic.Relation

/-! Rewinding recorders. A recorder rewinds when every series of actions performed on it is taken back
by going to the mark set before them. A log rewinds because entries are only appended. A builder rewinds
because each action puts the edits that undo it on top of its journal; this needs an arena whose parents
and children agree, which every builder in use has (`Builder.Reachable.valid`). -/

namespace TransitionNetwork

/-- The second recorder comes from the first by performing actions. -/
def Recorder.Performs {σ : Type} [Recorder σ] : σ → σ → Prop :=
  Relation.ReflTransGen fun before after =>
    ∃ action machine, after = Recorder.perform action machine before

/-- Whatever actions are performed behind the mark, it leads back to the recorder from before. -/
def Recorder.Rewinds {σ : Type} [Recorder σ] (recorder : σ) : Prop :=
  ∀ after, Recorder.Performs (Recorder.mark recorder).2 after →
    Recorder.rewind (Recorder.mark recorder).1 after = recorder

theorem Recorder.performs_record {σ : Type} [Recorder σ] (action : Option Action)
    (machine : String) (recorder : σ) : Recorder.Performs recorder (record action machine recorder) := by
  cases action with
  | none => exact .refl
  | some action => exact .single ⟨action, machine, rfl⟩

theorem Log.rewinds (log : Log) : Recorder.Rewinds log := by
  have hprefix : ∀ after, Recorder.Performs log after →
      ∃ newer, after.entries = log.entries ++ newer := by
    intro after h
    induction h with
    | refl => exact ⟨[], by simp⟩
    | tail _ hstep ih =>
        obtain ⟨newer, hentries⟩ := ih
        obtain ⟨action, machine, rfl⟩ := hstep
        refine ⟨newer ++ [(action, machine)], ?_⟩
        rw [← List.append_assoc, ← hentries]
        rfl
  intro after h
  obtain ⟨newer, hentries⟩ := hprefix after h
  change (⟨after.entries.take log.entries.length⟩ : Log) = log
  rw [hentries, List.take_left]

namespace Builder

/-! ### Builders whose journal can be undone -/

/-- A well-formed arena with the cursor inside. -/
def Placed (state : Tree × Nat) : Prop :=
  state.1.WellFormed ∧ state.2 < state.1.nodes.length

/-- Every state on the way back through the edits is a well-formed arena with the cursor inside. -/
def Undoable : Tree × Nat → List Edit → Prop
  | state, [] => Placed state
  | state, edit :: edits => Placed state ∧ Undoable (undo state edit) edits

def Valid (builder : Builder) : Prop :=
  Undoable (builder.tree, builder.cursor) builder.journal

theorem Undoable.placed {state : Tree × Nat} {edits : List Edit} (h : Undoable state edits) :
    Placed state := by
  cases edits with
  | nil => exact h
  | cons edit edits => exact h.1

theorem Undoable.foldl {state : Tree × Nat} {edits : List Edit} (h : Undoable state edits)
    (count : Nat) : Undoable ((edits.take count).foldl undo state) (edits.drop count) := by
  induction count generalizing state edits with
  | zero => exact h
  | succ count ih =>
      cases edits with
      | nil => exact h
      | cons edit edits => exact ih h.2

theorem Valid.placed {builder : Builder} (h : builder.Valid) :
    Placed (builder.tree, builder.cursor) :=
  Undoable.placed h

/-- The edits lead back to a state, through well-formed arenas with the cursor inside. -/
def LeadsBack (target : Tree × Nat) : Tree × Nat → List Edit → Prop
  | state, [] => state = target
  | state, edit :: edits => Placed state ∧ LeadsBack target (undo state edit) edits

theorem LeadsBack.foldl_eq {target state : Tree × Nat} {edits : List Edit}
    (h : LeadsBack target state edits) : edits.foldl undo state = target := by
  induction edits generalizing state with
  | nil => exact h
  | cons edit edits ih => exact ih h.2

theorem LeadsBack.append {first second state : Tree × Nat} {edits edits' : List Edit}
    (h : LeadsBack second state edits') (h' : LeadsBack first second edits) :
    LeadsBack first state (edits' ++ edits) := by
  induction edits' generalizing state with
  | nil =>
      cases h
      exact h'
  | cons edit edits' ih => exact ⟨h.1, ih h.2⟩

theorem LeadsBack.undoable {target state : Tree × Nat} {edits journal : List Edit}
    (h : LeadsBack target state edits) (hjournal : Undoable target journal) :
    Undoable state (edits ++ journal) := by
  induction edits generalizing state with
  | nil =>
      cases h
      exact hjournal
  | cons edit edits ih => exact ⟨h.1, ih h.2⟩

/-- The second builder comes from the first by edits that stand on top of its journal. -/
def Extends (before after : Builder) : Prop :=
  ∃ edits, after.journal = edits ++ before.journal ∧
    LeadsBack (before.tree, before.cursor) (after.tree, after.cursor) edits

theorem Extends.refl (builder : Builder) : Extends builder builder :=
  ⟨[], rfl, rfl⟩

theorem Extends.trans {first second third : Builder} (h : Extends first second)
    (h' : Extends second third) : Extends first third := by
  obtain ⟨edits, hjournal, hback⟩ := h
  obtain ⟨edits', hjournal', hback'⟩ := h'
  refine ⟨edits' ++ edits, ?_, hback'.append hback⟩
  rw [hjournal', hjournal, List.append_assoc]

theorem Extends.valid {before after : Builder} (h : Extends before after)
    (hvalid : before.Valid) : after.Valid := by
  obtain ⟨edits, hjournal, hback⟩ := h
  rw [Valid, hjournal]
  exact hback.undoable hvalid

/-- Rewinding takes exactly the edits since the mark back. -/
theorem Extends.rewind_eq {before after : Builder} (h : Extends before after) :
    rewind before.mark after = { before with token := after.token } := by
  obtain ⟨edits, hjournal, hback⟩ := h
  have hnewer : after.journal.length - before.mark = edits.length := by
    rw [hjournal, mark, List.length_append, Nat.add_sub_cancel]
  rw [rewind]
  dsimp only
  rw [hnewer, hjournal, List.take_left, List.drop_left, hback.foldl_eq]

/-! ### Each action can be undone -/

theorem placed_addChild {tree : Tree} {parent : Nat} (h : Placed (tree, parent)) (label : String)
    (token : Option Token) {cursor : Nat} (hcursor : cursor ≤ tree.nodes.length) :
    Placed ((tree.addChild parent label token).1, cursor) := by
  refine ⟨h.1.addChild h.2 label token, ?_⟩
  rw [Tree.length_addChild]
  exact Nat.lt_succ_of_le hcursor

theorem placed_detach {tree : Tree} {index parent : Nat} (hwf : tree.WellFormed)
    (hparent : tree.parent? index = some parent) {cursor : Nat} (hcursor : cursor ≤ index) :
    Placed ((tree.detach index).1, cursor) := by
  refine ⟨hwf.detach hparent, ?_⟩
  rw [hwf.length_detach hparent]
  exact Nat.lt_of_le_of_lt hcursor (Tree.lt_length_of_parent? hparent)

theorem extends_appendLeaf {builder : Builder} (h : builder.Valid) :
    Extends builder builder.appendLeaf := by
  have hplaced := h.placed
  rw [appendLeaf]
  split
  · exact .refl builder
  · refine ⟨[.attach], rfl, placed_addChild hplaced _ _ (Nat.le_of_lt hplaced.2), ?_⟩
    dsimp only [undo, LeadsBack]
    rw [Tree.dropLast_addChild hplaced.2]

theorem extends_descend {builder : Builder} (h : builder.Valid) (label : String) :
    Extends builder (builder.descend label) := by
  have hplaced := h.placed
  refine ⟨[.cursor builder.cursor, .attach], rfl, placed_addChild hplaced _ _ (Nat.le_refl _),
    placed_addChild hplaced _ _ (Nat.le_of_lt hplaced.2), ?_⟩
  dsimp only [undo, descend, LeadsBack]
  rw [Tree.dropLast_addChild hplaced.2]

/-- What going up does: the cursor moves to the parent, and a node without children is detached. -/
theorem ascend_cases {builder : Builder} (hwf : builder.tree.WellFormed) :
    (builder.tree.parent? builder.cursor = none ∧ builder.ascend = builder) ∨
    ∃ parent, builder.tree.parent? builder.cursor = some parent ∧
      ((builder.tree.children builder.cursor ≠ [] ∧
          builder.ascend = { builder with
            cursor := parent
            journal := .cursor builder.cursor :: builder.journal }) ∨
        ∃ place, builder.tree.children builder.cursor = [] ∧
          (builder.tree.detach builder.cursor).2 = some (parent, place) ∧
          builder.ascend = { builder with
            tree := (builder.tree.detach builder.cursor).1
            cursor := parent
            journal := .cursor builder.cursor :: .detach parent builder.cursor place ::
              builder.journal }) := by
  cases hparent : builder.tree.parent? builder.cursor with
  | none =>
      left
      rw [ascend, hparent]
      exact ⟨rfl, rfl⟩
  | some parent =>
      right
      refine ⟨parent, rfl, ?_⟩
      by_cases hempty : builder.tree.children builder.cursor = []
      · obtain ⟨place, -, heq⟩ := hwf.detach_eq hparent
        have hleaf : (builder.tree.node builder.cursor).isLeaf = true := by
          rw [Node.isLeaf]
          exact List.isEmpty_iff.mpr hempty
        right
        refine ⟨place, hempty, by rw [heq], ?_⟩
        rw [ascend, hparent]
        dsimp only
        rw [if_pos hleaf, heq]
      · have hleaf : ¬ (builder.tree.node builder.cursor).isLeaf = true := by
          rw [Node.isLeaf]
          exact fun hnil => hempty (List.isEmpty_iff.mp hnil)
        left
        refine ⟨hempty, ?_⟩
        rw [ascend, hparent]
        dsimp only
        rw [if_neg hleaf]

theorem extends_ascend {builder : Builder} (h : builder.Valid) :
    Extends builder builder.ascend := by
  have hplaced := h.placed
  rcases ascend_cases hplaced.1 with ⟨-, heq⟩ | ⟨parent, hparent, ⟨-, heq⟩ | ⟨place, -, hplace, heq⟩⟩
  · rw [heq]
    exact .refl builder
  · have hless := hplaced.1.parent_lt _ _ hparent
    rw [heq]
    exact ⟨[.cursor builder.cursor], rfl, ⟨hplaced.1, Nat.lt_trans hless hplaced.2⟩, rfl⟩
  · have hless := hplaced.1.parent_lt _ _ hparent
    rw [heq]
    refine ⟨[.cursor builder.cursor, .detach parent builder.cursor place], rfl,
      placed_detach hplaced.1 hparent (Nat.le_of_lt hless),
      placed_detach hplaced.1 hparent (Nat.le_refl _), ?_⟩
    dsimp only [undo, LeadsBack]
    rw [hplaced.1.reattach_detach hparent hplace]

theorem extends_perform {builder : Builder} (h : builder.Valid) (action : Action)
    (machine : String) : Extends builder (builder.perform action machine) := by
  cases action with
  | leaf => exact extends_appendLeaf h
  | descend => exact extends_descend h machine
  | ascend => exact extends_ascend h

@[simp] theorem token_perform (builder : Builder) (action : Action) (machine : String) :
    (builder.perform action machine).token = builder.token := by
  cases action with
  | leaf =>
      rw [perform, appendLeaf]
      split <;> rfl
  | descend => rfl
  | ascend =>
      rw [perform, ascend]
      split <;> rfl

theorem token_performs {before after : Builder} (h : Recorder.Performs before after) :
    after.token = before.token := by
  induction h with
  | refl => rfl
  | tail _ hstep ih =>
      obtain ⟨action, machine, rfl⟩ := hstep
      exact (token_perform _ action machine).trans ih

theorem Valid.of_performs {before after : Builder} (hvalid : before.Valid)
    (h : Recorder.Performs before after) : Extends before after := by
  induction h with
  | refl => exact .refl before
  | tail _ hstep ih =>
      obtain ⟨action, machine, rfl⟩ := hstep
      exact ih.trans (extends_perform (ih.valid hvalid) action machine)

theorem Valid.rewinds {builder : Builder} (hvalid : builder.Valid) : Recorder.Rewinds builder := by
  intro after h
  have hrewind := (hvalid.of_performs h).rewind_eq
  rw [token_performs h] at hrewind
  exact hrewind

/-! ### Builders in use -/

/-- The builders that come from a new one by any of their operations. -/
inductive Reachable : Builder → Prop
  | start (label : String) : Reachable (start label)
  | setToken {builder : Builder} (h : Reachable builder) (token : Token) :
      Reachable (builder.setToken token)
  | perform {builder : Builder} (h : Reachable builder) (action : Action) (machine : String) :
      Reachable (builder.perform action machine)
  | rewind {builder : Builder} (h : Reachable builder) (mark : Nat) :
      Reachable (builder.rewind mark)
  | commit {builder : Builder} (h : Reachable builder) : Reachable builder.commit
  | reset {builder : Builder} (h : Reachable builder) : Reachable builder.reset

theorem Reachable.valid {builder : Builder} (h : Reachable builder) : builder.Valid := by
  induction h with
  | start label =>
      have hwf := Tree.wellFormed_single label
      exact ⟨hwf, hwf.root_lt⟩
  | setToken _ token ih => exact ih
  | perform _ action machine ih => exact (extends_perform ih action machine).valid ih
  | rewind _ mark ih => exact Undoable.foldl ih _
  | commit _ ih => exact ih.placed
  | reset _ ih =>
      have hwf := ih.placed.1.clear
      exact ⟨hwf, hwf.root_lt⟩

end Builder

end TransitionNetwork
