import TransitionNetwork.Proofs.TreeActions
import TransitionNetwork.Proofs.TreeReach

/-! Open calls and open nodes. In a network that builds trees, every machine that is in control or waits
has an open node of its own, which bears its name and whose finished trees stand for tokens. `Tracks`
states this together with the tokens at the leaves. It holds at the start; a call opens one more node, a
return finishes one, a terminal adds its token, and no other move changes the nodes. -/

namespace TransitionNetwork.Network

/-- A machine of the network at work on an open node. -/
structure Attends (network : Network) (cursor : Cursor) (node : OpenNode) : Prop where
  machine_mem : cursor.automaton ∈ network.machines
  label_eq : node.label = cursor.machine
  lexical : ∀ shape ∈ node.closed, shape.Lexical

/-- The frames of a session and the open nodes they wait at, the innermost first; `callee` is the
machine that the innermost frame has called. -/
def Awaits (network : Network) : (callee : String) → List Cursor → List OpenNode → Prop
  | _, [], [] => True
  | callee, frame :: frames, node :: path => network.Attends frame node ∧
      frame.current.hasCall callee = true ∧ network.Awaits frame.machine frames path
  | _, _, _ => False

/-- The machine in control and those that wait have an open node each, and the tree has these tokens at
its leaves. -/
def Tracks (network : Network) (tokens : List Token) (configuration : Configuration Builder) : Prop :=
  ∃ inner path, configuration.recorder.Grows inner path ∧
    network.Attends configuration.active inner ∧
    network.Awaits configuration.active.machine configuration.frames path ∧
    inner.tokens path = tokens

variable {network : Network} {limits : Limits} {symbol : Option String} {tokens : List Token}

theorem BuildsTrees.current (hbuilds : network.BuildsTrees) {cursor : Cursor}
    (hmachine : cursor.automaton ∈ network.machines) : cursor.current.BuildsTree :=
  (hbuilds _ hmachine).state _

theorem tracks_start (network : Network) :
    network.Tracks [] ((Session.start network).configuration
      (Builder.start network.start.name)) := by
  refine ⟨_, _, Builder.grows_start network.start.name, ?_, trivial, rfl⟩
  exact ⟨network.start_mem, rfl, by simp⟩

/-- The journal and the token at hand do not matter. -/
theorem Tracks.of_eq {active : Cursor} {frames : List Cursor} {builder other : Builder}
    (h : network.Tracks tokens ⟨active, frames, builder⟩) (htree : other.tree = builder.tree)
    (hcursor : other.cursor = builder.cursor) : network.Tracks tokens ⟨active, frames, other⟩ := by
  obtain ⟨inner, path, hgrows, hrest⟩ := h
  exact ⟨inner, path, hgrows.of_eq htree hcursor, hrest⟩

theorem Awaits.machine_mem {callee : String} {frames : List Cursor} {path : List OpenNode}
    (h : network.Awaits callee frames path) :
    ∀ frame ∈ frames, frame.automaton ∈ network.machines := by
  induction frames generalizing callee path with
  | nil => simp
  | cons frame frames ih =>
      cases path with
      | nil => exact absurd h id
      | cons node path => exact List.forall_mem_cons.mpr ⟨h.1.machine_mem, ih h.2.2⟩

theorem Awaits.lexical {callee : String} {frames : List Cursor} {path : List OpenNode}
    (h : network.Awaits callee frames path) :
    ∀ node ∈ path, ∀ shape ∈ node.closed, shape.Lexical := by
  induction frames generalizing callee path with
  | nil =>
      cases path with
      | nil => simp
      | cons => exact absurd h id
  | cons frame frames ih =>
      cases path with
      | nil => exact absurd h id
      | cons node path => exact List.forall_mem_cons.mpr ⟨h.1.lexical, ih h.2.2⟩

/-- Every machine at work belongs to the network. -/
theorem Tracks.machine_mem {configuration : Configuration Builder}
    (h : network.Tracks tokens configuration) :
    ∀ cursor ∈ configuration.active :: configuration.frames,
      cursor.automaton ∈ network.machines := by
  obtain ⟨inner, path, -, hattends, hawaits, -⟩ := h
  exact List.forall_mem_cons.mpr ⟨hattends.machine_mem, hawaits.machine_mem⟩

/-! ### One move -/

section
variable {active frame : Cursor} {frames : List Cursor} {builder : Builder}

theorem Tracks.enter (hbuilds : network.BuildsTrees)
    (h : network.Tracks tokens ⟨active, frames, builder⟩) {call : Call} {callee : Automaton}
    (hcall : call ∈ active.current.calls) (hcallee : network.machine? call.callee = some callee) :
    network.Tracks tokens ⟨.start callee, active :: frames,
      record call.before callee.name builder⟩ := by
  obtain ⟨inner, path, hgrows, hattends, hawaits, htokens⟩ := h
  obtain ⟨hmachine, hname⟩ := mem_of_machine? hcallee
  have hfound : active.current.hasCall callee.name = true := by
    rw [hname, State.hasCall, State.call?, List.find?_isSome]
    exact ⟨call, hcall, decide_eq_true rfl⟩
  rw [((hbuilds.current hattends.machine_mem).call call hcall).1]
  refine ⟨_, _, hgrows.descend callee.name, ⟨hmachine, rfl, by simp⟩,
    ⟨hattends, hfound, hawaits⟩, ?_⟩
  rw [OpenNode.tokens, htokens]
  exact List.append_nil tokens

/-- The caller waits at the call, so it is found again; a node that has stayed empty is gone. -/
theorem Tracks.leave (hbuilds : network.BuildsTrees)
    (h : network.Tracks tokens ⟨active, frame :: frames, builder⟩) :
    ∃ call, frame.current.call? active.machine = some call ∧
      network.Tracks tokens ⟨⟨frame.automaton, call.target⟩, frames,
        record call.after frame.machine builder⟩ := by
  obtain ⟨inner, path, hgrows, hattends, hawaits, htokens⟩ := h
  cases path with
  | nil => exact absurd hawaits id
  | cons outer path =>
      obtain ⟨houter, hcalled, hawaits⟩ := hawaits
      obtain ⟨call, hcall⟩ := Option.isSome_iff_exists.mp hcalled
      have hmem := List.mem_of_find?_eq_some hcall
      refine ⟨call, hcall, ?_⟩
      rw [((hbuilds.current houter.machine_mem).call call hmem).2]
      have hgrows' := hgrows.ascend
      by_cases hclosed : inner.closed = []
      · rw [if_pos hclosed] at hgrows'
        refine ⟨outer, path, hgrows', ⟨houter.machine_mem, houter.label_eq, houter.lexical⟩,
          hawaits, ?_⟩
        rw [← htokens, OpenNode.tokens, hclosed]
        exact (List.append_nil _).symm
      · rw [if_neg hclosed] at hgrows'
        refine ⟨outer.add inner.close, path, hgrows',
          ⟨houter.machine_mem, houter.label_eq, ?_⟩, hawaits, ?_⟩
        · intro shape hshape
          rcases List.mem_append.mp hshape with hold | hnew
          · exact houter.lexical shape hold
          · rw [List.mem_singleton.mp hnew]
            exact .node _ _ hclosed hattends.lexical
        · rw [OpenNode.tokens_add, OpenNode.close, Shape.tokens_node, ← htokens]
          rfl

/-- A move of the machine in control without an action. -/
theorem Tracks.silent (h : network.Tracks tokens ⟨active, frames, builder⟩) (target : Nat) :
    network.Tracks tokens ⟨⟨active.automaton, target⟩, frames, builder⟩ := by
  obtain ⟨inner, path, hgrows, hattends, hawaits, htokens⟩ := h
  exact ⟨inner, path, hgrows, ⟨hattends.machine_mem, hattends.label_eq, hattends.lexical⟩,
    hawaits, htokens⟩

theorem Tracks.epsilon (hbuilds : network.BuildsTrees)
    (h : network.Tracks tokens ⟨active, frames, builder⟩) {epsilon : Transition}
    (hepsilon : active.current.epsilon = some epsilon) :
    network.Tracks tokens ⟨⟨active.automaton, epsilon.target⟩, frames,
      record epsilon.action active.machine builder⟩ := by
  have hmachine : active.automaton ∈ network.machines := h.machine_mem active List.mem_cons_self
  rw [(hbuilds.current hmachine).epsilon epsilon hepsilon]
  exact h.silent epsilon.target

theorem Tracks.alternate (hbuilds : network.BuildsTrees)
    (h : network.Tracks tokens ⟨active, frames, builder⟩) {alternate : Transition}
    (halternate : active.current.alternate = some alternate) :
    network.Tracks tokens ⟨⟨active.automaton, alternate.target⟩, frames,
      record alternate.action active.machine builder⟩ := by
  have hmachine : active.automaton ∈ network.machines := h.machine_mem active List.mem_cons_self
  rw [(hbuilds.current hmachine).alternate alternate halternate]
  exact h.silent alternate.target

/-- A terminal adds the token at hand. -/
theorem Tracks.transition (hbuilds : network.BuildsTrees)
    (h : network.Tracks tokens ⟨active, frames, builder⟩) {token : Token}
    (htoken : builder.token = some token) {transition : Transition}
    (htransition : transition ∈ active.current.transitions) :
    network.Tracks (tokens ++ [token]) ⟨⟨active.automaton, transition.target⟩, frames,
      record transition.action active.machine builder⟩ := by
  obtain ⟨inner, path, hgrows, hattends, hawaits, htokens⟩ := h
  rw [(hbuilds.current hattends.machine_mem).transition transition htransition]
  refine ⟨_, path, hgrows.appendLeaf htoken, ⟨hattends.machine_mem, hattends.label_eq, ?_⟩,
    hawaits, ?_⟩
  · intro shape hshape
    rcases List.mem_append.mp hshape with hold | hnew
    · exact hattends.lexical shape hold
    · rw [List.mem_singleton.mp hnew]
      exact .leaf _ token
  · rw [OpenNode.tokens_add, htokens, Shape.tokens_leaf]
    rfl

end

variable {before after : Configuration Builder}

theorem Tracks.move (hbuilds : network.BuildsTrees) (h : network.Tracks tokens before)
    (hmove : before.Move network limits symbol after) : network.Tracks tokens after := by
  cases hmove with
  | enter heligible _ hcallee => exact h.enter hbuilds (mem_of_eligibleCall? heligible) hcallee
  | leave _ hcall =>
      obtain ⟨call, hfound, htracks⟩ := h.leave hbuilds
      rw [hcall] at hfound
      cases hfound
      exact htracks
  | dismiss _ hcall =>
      obtain ⟨call, hfound, -⟩ := h.leave hbuilds
      rw [hcall] at hfound
      cases hfound
  | epsilon hepsilon => exact h.epsilon hbuilds hepsilon

theorem Tracks.moves (hbuilds : network.BuildsTrees) (h : network.Tracks tokens before)
    (hmoves : before.Moves network limits symbol after) : network.Tracks tokens after := by
  induction hmoves with
  | refl => exact h
  | tail _ hmove ih => exact ih.move hbuilds hmove

/-- A symbol that is taken adds the token at hand or nothing. -/
theorem Tracks.take (hbuilds : network.BuildsTrees) (h : network.Tracks tokens before)
    {token : Token} (htoken : before.recorder.token = some token)
    (htake : before.Take token.category after) :
    network.Tracks (tokens ++ [token]) after ∨ network.Tracks tokens after := by
  cases htake with
  | transition htransition =>
      exact .inl (h.transition hbuilds htoken (List.mem_of_find?_eq_some htransition))
  | alternate _ _ halternate => exact .inr (h.alternate hbuilds halternate)

end TransitionNetwork.Network

namespace TransitionNetwork.Analyser

variable {analyser after : Analyser} {tokens : List Token} {token : Token}

/-! ### One token -/

/-- A consumed token is at hand when its category is taken. -/
theorem tracks_of_consumed (hbuilds : analyser.network.BuildsTrees)
    (h : analyser.network.Tracks tokens analyser.configuration)
    (hfeed : analyser.feed token = (true, after)) :
    ∃ ready taken recorded, analyser.network.Tracks tokens ready ∧
      ready.recorder.token = some token ∧ ready.Take token.category taken ∧
      taken.Moves analyser.network analyser.limits.session (some token.category)
        (after.session.configuration recorded) ∧
      after = { analyser with session := after.session, builder := recorded.commit } := by
  obtain ⟨session, recorded, ⟨ready, taken, hready, htake, htaken⟩, -, rfl⟩ :=
    feed_of_consumed hfeed
  have hholding : analyser.network.Tracks tokens (analyser.holding token).configuration :=
    h.of_eq rfl rfl
  exact ⟨ready, taken, recorded, hholding.moves hbuilds hready,
    Builder.token_performs hready.performs, htake, htaken, rfl⟩

theorem tracks_of_rejected (hvalid : analyser.builder.Valid)
    (h : analyser.network.Tracks tokens analyser.configuration)
    (hfeed : analyser.feed token = (false, after)) :
    analyser.network.Tracks tokens after.configuration := by
  obtain ⟨session, hactive, hframes, rfl⟩ := feed_of_rejected hvalid hfeed
  change analyser.network.Tracks tokens ⟨session.active, session.frames, _⟩
  rw [hactive, hframes]
  exact h.of_eq rfl rfl

theorem tracks_settle (hbuilds : analyser.network.BuildsTrees)
    (h : analyser.network.Tracks tokens analyser.configuration) :
    analyser.network.Tracks tokens analyser.settle.2.configuration := by
  obtain ⟨session, recorded, hmoves, heq⟩ := settle_eq analyser
  rw [heq]
  exact (h.moves hbuilds hmoves).of_eq rfl rfl

end TransitionNetwork.Analyser
