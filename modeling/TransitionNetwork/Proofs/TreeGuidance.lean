import TransitionNetwork.Proofs.PendingTrees
import TransitionNetwork.Proofs.PredictiveGrammar

/-! Sessions that keep to a derivation tree. The machine in control and those that wait have each found the
trees below an open node, and with the trees to come behind these nodes the derivation tree is complete
(`KeepsTo`). Over a predictive grammar the next token leaves one way to go on. Where the tree goes on below
the current node, the lookahead finds the call of its next nonterminal and no other, or no call but a
transition; where a rule has ended, it finds neither. Each way keeps to the tree. -/

namespace TransitionNetwork

namespace Grammar

variable {grammar : Grammar} {start : String} {network : Network} {bound : Nat}

/-- The network of a grammar that one terminal of lookahead decides. -/
structure Guides (grammar : Grammar) (start : String) (network : Network) : Prop where
  describes : grammar.Describes start network
  free : grammar.EpsilonFree
  predictive : grammar.Predictive start

/-! ### Keeping to a derivation tree -/

/-- A machine on its way along a rule. It has found the finished trees below its node; behind these come
some symbols and then the trees to come. The depth is the number of machines that wait for it. -/
structure Pursues (grammar : Grammar) (network : Network) (bound depth : Nat) (cursor : Cursor)
    (node : OpenNode) (more : List Symbol) (rest : List Shape) : Prop where
  automaton_eq : cursor.automaton = grammar.machine node.label
  known : network.machine? node.label = some (grammar.machine node.label)
  located : Trie.locate? (grammar.machine node.label) (node.closed.map Shape.symbol) =
    some cursor.state
  rule : ∃ rule ∈ grammar.rulesFor node.label,
    rule.body = node.closed.map Shape.symbol ++ (more ++ rest.map Shape.symbol)
  parses : ∀ shape ∈ rest, grammar.Parses shape
  nested : ∀ shape ∈ rest, shape.token = none → depth + 1 + shape.nesting ≤ bound

/-- The frames of a session, each waiting for the call behind its finished trees. -/
def Expects (grammar : Grammar) (start : String) (network : Network) (bound : Nat) :
    String → List Cursor → List PendingNode → Prop
  | callee, [], [] => callee = start
  | callee, frame :: frames, (node, rest) :: path =>
      grammar.Pursues network bound frames.length frame node [.nonterminal callee] rest ∧
        Expects grammar start network bound node.label frames path
  | _, _, _ => False

/-- The machine in control and the frames keep to a derivation tree, of which the builder has the open
nodes. -/
structure KeepsTo (grammar : Grammar) (start : String) (network : Network) (bound : Nat)
    (goal : Shape) (inner : OpenNode) (rest : List Shape) (path : List PendingNode)
    (configuration : Configuration Builder) : Prop where
  grows : configuration.recorder.Grows inner (path.map Prod.fst)
  pursues : grammar.Pursues network bound configuration.frames.length configuration.active inner []
    rest
  expects : grammar.Expects start network bound inner.label configuration.frames path
  complete_eq : (inner.complete rest path).bare = goal.bare
  depth_le : configuration.frames.length ≤ bound

/-- The trees to come, those below the innermost node first. -/
def toCome (rest : List Shape) (path : List PendingNode) : List Shape :=
  rest ++ path.flatMap Prod.snd

theorem Expects.parses {callee : String} {frames : List Cursor} {path : List PendingNode}
    (h : grammar.Expects start network bound callee frames path) :
    ∀ shape ∈ path.flatMap Prod.snd, grammar.Parses shape := by
  induction frames generalizing callee path with
  | nil =>
      cases path with
      | nil => exact nofun
      | cons => exact absurd h id
  | cons frame frames ih =>
      rcases path with _ | ⟨⟨node, rest⟩, path⟩
      · exact absurd h id
      · intro shape hshape
        rw [List.flatMap_cons] at hshape
        rcases List.mem_append.mp hshape with hown | houtside
        · exact h.1.parses shape hown
        · exact ih h.2 shape houtside

theorem KeepsTo.parses {goal : Shape} {inner : OpenNode} {rest : List Shape}
    {path : List PendingNode} {configuration : Configuration Builder}
    (h : grammar.KeepsTo start network bound goal inner rest path configuration) :
    ∀ shape ∈ toCome rest path, grammar.Parses shape := by
  intro shape hshape
  rcases List.mem_append.mp hshape with hown | houtside
  · exact h.pursues.parses shape hown
  · exact h.expects.parses shape houtside

/-- The call that is open stands in a sentential form of the start symbol before the symbols of the
trees to come outside. -/
theorem Expects.derives {callee : String} {frames : List Cursor} {path : List PendingNode}
    (h : grammar.Expects start network bound callee frames path) :
    ∃ left, grammar.Derives [.nonterminal start]
      (left ++ .nonterminal callee :: (path.flatMap Prod.snd).map Shape.symbol) := by
  induction frames generalizing callee path with
  | nil =>
      cases path with
      | nil =>
          have hcallee : callee = start := h
          rw [hcallee]
          exact ⟨[], .refl⟩
      | cons => exact absurd h id
  | cons frame frames ih =>
      rcases path with _ | ⟨⟨node, rest⟩, path⟩
      · exact absurd h id
      · obtain ⟨left, hderives⟩ := ih h.2
        obtain ⟨rule, hrule, hbody⟩ := h.1.rule
        obtain ⟨hmem, hgenerator⟩ := mem_rulesFor.mp hrule
        have hnode := derives_body hmem
        rw [hgenerator, hbody] at hnode
        refine ⟨left ++ node.closed.map Shape.symbol, ?_⟩
        simpa using hderives.replace hnode

/-- The next token outside follows the nonterminal whose call is open. -/
theorem Expects.follow (hfree : grammar.EpsilonFree) {callee : String} {frames : List Cursor}
    {path : List PendingNode} (h : grammar.Expects start network bound callee frames path)
    {token : Token} {tokens : List Token}
    (htokens : (path.flatMap Prod.snd).flatMap Shape.tokens = token :: tokens) :
    grammar.Follow start callee token.category := by
  obtain ⟨left, hderives⟩ := h.derives
  have houtside := derives_of_parses hfree h.parses
  rw [htokens] at houtside
  refine ⟨left, categories tokens, hderives.trans ?_⟩
  exact (houtside.append_left [.nonterminal callee]).append_left left

/-! ### What the next token decides -/

section

variable {depth : Nat} {cursor : Cursor} {node : OpenNode} {more : List Symbol} {rest : List Shape}

theorem Pursues.machine_eq (h : grammar.Pursues network bound depth cursor node more rest) :
    cursor.machine = node.label := by
  rw [Cursor.machine, h.automaton_eq, name_machine]

theorem Pursues.current_eq (h : grammar.Pursues network bound depth cursor node more rest) :
    cursor.current = (grammar.machine node.label).state cursor.state := by
  rw [Cursor.current, h.automaton_eq]

theorem Pursues.reads (h : grammar.Pursues network bound depth cursor node more rest) :
    Trie.Reads (grammar.rulesFor node.label) (grammar.word node.label) cursor.state
      cursor.current := by
  obtain ⟨hinside, -⟩ := word_of_locate? h.located
  rw [h.current_eq]
  exact (grammar.spells_word node.label).reads _ hinside.2.1 hinside.2.2

/-- On its way along a rule a machine neither accepts nor fails. -/
theorem Pursues.atAccept_eq (h : grammar.Pursues network bound depth cursor node more rest) :
    cursor.atAccept = false ∧ cursor.atError = false := by
  rw [Cursor.atAccept, State.isAccept, Cursor.atError, State.isError, h.reads.kind_eq]
  decide

/-- The symbol of the next tree, or the symbol that is waited for, comes next in a rule. -/
theorem Pursues.continues (h : grammar.Pursues network bound depth cursor node more rest)
    {symbol : Symbol} {symbols : List Symbol}
    (hnext : more ++ rest.map Shape.symbol = symbol :: symbols) :
    grammar.Continues node.label (node.closed.map Shape.symbol) symbol := by
  obtain ⟨rule, hrule, hbody⟩ := h.rule
  refine ⟨rule, hrule, symbols, ?_⟩
  rw [hbody, hnext, List.append_assoc]
  rfl

/-- Without a nonterminal that has the terminal at hand as a first, there is no call to enter. -/
theorem Pursues.eligibleCall?_eq_none (hguides : grammar.Guides start network)
    (h : grammar.Pursues network bound depth cursor node more rest) {terminal : String}
    (hnone : ∀ callee, grammar.Continues node.label (node.closed.map Shape.symbol)
      (.nonterminal callee) → ¬ grammar.First (.nonterminal callee) terminal) :
    network.eligibleCall? (some terminal) cursor.current.calls = none := by
  apply Network.eligibleCall?_eq_none
  intro call hcall hstartable
  rw [h.current_eq] at hcall
  exact hnone call.callee (continues_of_call h.located hcall)
    (hguides.describes.first_of_startable hguides.free hstartable)

/-- Where a rule has ended, a terminal that follows the nonterminal is neither taken nor handed to a
call. -/
theorem Pursues.decides_end (hguides : grammar.Guides start network)
    (h : grammar.Pursues network bound depth cursor node [] []) {terminal : String}
    (hfollow : grammar.Follow start node.label terminal) :
    network.eligibleCall? (some terminal) cursor.current.calls = none ∧
      cursor.current.transition? terminal = none := by
  obtain ⟨rule, hrule, hbody⟩ := h.rule
  obtain ⟨hmem, hgenerator⟩ := mem_rulesFor.mp hrule
  have hapart : ∀ symbol, grammar.Continues node.label (node.closed.map Shape.symbol) symbol →
      ¬ grammar.First symbol terminal := by
    intro symbol hcontinues hfirst
    rw [← hgenerator] at hfollow
    refine hguides.predictive.follow_apart rule hmem symbol ?_ terminal hfirst hfollow
    rw [hgenerator, hbody, List.map_nil, List.append_nil, List.append_nil]
    exact hcontinues
  refine ⟨h.eligibleCall?_eq_none hguides fun callee => hapart (.nonterminal callee), ?_⟩
  rw [h.current_eq]
  by_contra hsome
  obtain ⟨transition, htransition⟩ := Option.ne_none_iff_exists'.mp hsome
  exact hapart (.terminal terminal) (continues_of_transition? h.located htransition)
    (first_terminal grammar terminal)

/-- Where a token comes next, no call is entered for it. -/
theorem Pursues.decides_token (hguides : grammar.Guides start network) {shape : Shape}
    (h : grammar.Pursues network bound depth cursor node [] (shape :: rest)) {terminal : String}
    (hsymbol : shape.symbol = .terminal terminal) :
    network.eligibleCall? (some terminal) cursor.current.calls = none := by
  have hnext := h.continues (List.map_cons)
  rw [hsymbol] at hnext
  apply h.eligibleCall?_eq_none hguides
  intro callee hcontinues
  exact hguides.predictive.first_apart _ _ _ _ hnext hcontinues nofun terminal
    (first_terminal grammar terminal)

/-- Where the tree of a nonterminal comes next, its call is entered for its first token. -/
theorem Pursues.decides_call (hguides : grammar.Guides start network) {shape : Shape}
    (h : grammar.Pursues network bound depth cursor node [] (shape :: rest))
    (htoken : shape.token = none) {token : Token} {tokens : List Token}
    (htokens : shape.tokens = token :: tokens) :
    ∃ call, network.eligibleCall? (some token.category) cursor.current.calls = some call ∧
      call.callee = shape.label ∧ call.before = some .descend ∧
      network.machine? shape.label = some (grammar.machine shape.label) := by
  have hsymbol : shape.symbol = .nonterminal shape.label := by rw [Shape.symbol, htoken]; rfl
  have hnext := h.continues (List.map_cons)
  rw [hsymbol] at hnext
  obtain ⟨target, hstep, -⟩ := hnext.step? h.located
  obtain ⟨wanted, hwanted, -⟩ := Option.map_eq_some_iff.mp hstep
  have hmem := List.mem_of_find?_eq_some hwanted
  have hcallee : wanted.callee = shape.label := by simpa using List.find?_some hwanted
  have hknown := hguides.describes.machine?_callee h.known hmem
  have hcalls : ∀ call ∈ ((grammar.machine node.label).state cursor.state).calls,
      call.callee ∈ network.machines.map (·.name) := by
    intro call hcall
    obtain ⟨hmachine, hname⟩ :=
      Network.mem_of_machine? (hguides.describes.machine?_callee h.known hcall)
    exact List.mem_map.mpr ⟨_, hmachine, hname⟩
  rw [hcallee] at hknown
  have hstartable := (h.parses shape List.mem_cons_self).startable hguides.describes hguides.free
    hknown htoken htokens
  rw [← hcallee] at hstartable
  obtain ⟨call, hcall, heligible, hstarts⟩ := Network.exists_eligibleCall? hcalls hmem hstartable
  -- a call of another nonterminal would have the same first
  have hsame : call.callee = shape.label := by
    by_contra hne
    refine hguides.predictive.first_apart _ _ _ _ hnext (continues_of_call h.located hcall) ?_
      token.category ?_ (hguides.describes.first_of_startable hguides.free hstarts)
    · exact fun heq => hne (Symbol.nonterminal.inj heq).symm
    · rw [← hcallee]
      exact hguides.describes.first_of_startable hguides.free hstartable
  have hreads := h.reads
  rw [h.current_eq] at hreads ⊢
  exact ⟨call, heligible, hsame, (hreads.call call hcall).1, hknown⟩

/-- The end of a rule has an epsilon move, to the final state. -/
theorem Pursues.epsilon_eq (hfree : grammar.EpsilonFree)
    (h : grammar.Pursues network bound depth cursor node [] []) :
    ∃ epsilon, cursor.current.epsilon = some epsilon ∧ epsilon.target = Trie.final ∧
      epsilon.action = none ∧ cursor.automaton.state Trie.final =
        { name := Trie.finalName, kind := .accept } := by
  obtain ⟨rule, hrule, hbody⟩ := h.rule
  have hlocated := h.located
  rw [List.map_nil, List.append_nil, List.append_nil] at hbody
  rw [← hbody] at hlocated
  obtain ⟨epsilon, hepsilon, htarget, haction⟩ := hfree.epsilon_of_body hrule hlocated
  rw [← h.current_eq] at hepsilon
  rw [h.automaton_eq]
  exact ⟨epsilon, hepsilon, htarget, haction, (grammar.spells_word node.label).final_eq⟩

/-! ### Steps along the tree -/

/-- A machine at its beginning, with the children of a tree to come. -/
theorem Parses.pursues {index : Nat} {label : String} {children : List Shape}
    (h : grammar.Parses (.node index label none children))
    (hknown : network.machine? label = some (grammar.machine label))
    (hnested : depth + Shape.nesting (.node index label none children) ≤ bound) (opened : Nat) :
    grammar.Pursues network bound depth (.start (grammar.machine label))
      { index := opened, label } [] children := by
  cases h with
  | @node _ rule hrule _ hbody hchildren =>
      refine ⟨rfl, hknown, rfl, ⟨rule, mem_rulesFor.mpr ⟨hrule, rfl⟩, hbody.symm⟩, hchildren, ?_⟩
      intro shape hshape htoken
      have hbelow : shape.nesting < Shape.nesting (.node index rule.generator none children) :=
        Shape.nesting_lt_of_mem hshape htoken
      omega

/-- Going on by the symbol that comes next, for which there is a tree. -/
theorem Pursues.advance (h : grammar.Pursues network bound depth cursor node more rest)
    {built : Shape} {others : List Shape}
    (hnext : more ++ rest.map Shape.symbol = built.symbol :: others.map Shape.symbol)
    (hothers : ∀ shape ∈ others, shape ∈ rest) {target : Nat}
    (htarget : Trie.locate? (grammar.machine node.label)
      (node.closed.map Shape.symbol ++ [built.symbol]) = some target) :
    grammar.Pursues network bound depth ⟨cursor.automaton, target⟩ (node.add built) [] others where
  automaton_eq := h.automaton_eq
  known := h.known
  located := by
    rw [OpenNode.add, List.map_append]
    exact htarget
  rule := by
    obtain ⟨rule, hrule, hbody⟩ := h.rule
    refine ⟨rule, hrule, ?_⟩
    rw [hbody, hnext, OpenNode.add, List.map_append, List.append_assoc]
    rfl
  parses := fun shape hshape => h.parses shape (hothers shape hshape)
  nested := fun shape hshape => h.nested shape (hothers shape hshape)

end

variable {goal : Shape} {inner : OpenNode} {rest : List Shape} {path : List PendingNode}
  {configuration : Configuration Builder}

/-- Where a rule has ended, the caller goes on behind the call and has the tree of the callee. -/
theorem KeepsTo.leave (hfree : grammar.EpsilonFree) {outer : OpenNode} {others : List Shape}
    (h : grammar.KeepsTo start network bound goal inner [] ((outer, others) :: path)
      configuration) :
    ∃ frame frames call, configuration.frames = frame :: frames ∧
      frame.current.call? inner.label = some call ∧
      grammar.KeepsTo start network bound goal (outer.add inner.close) others path
        ⟨⟨frame.automaton, call.target⟩, frames,
          record call.after frame.machine configuration.recorder⟩ := by
  obtain ⟨active, frames, builder⟩ := configuration
  obtain ⟨hgrows, hpursues, hexpects, hcomplete, hdepth⟩ := h
  cases frames with
  | nil => exact absurd hexpects id
  | cons frame frames =>
      obtain ⟨hframe, houtside⟩ := hexpects
      have hcontinues := hframe.continues (List.singleton_append)
      obtain ⟨target, hstep, htarget⟩ := hcontinues.step? hframe.located
      obtain ⟨call, hcall, rfl⟩ := Option.map_eq_some_iff.mp hstep
      rw [← hframe.current_eq] at hcall
      have hclosed : inner.closed ≠ [] := by
        obtain ⟨rule, hrule, hbody⟩ := hpursues.rule
        intro hnil
        rw [hnil] at hbody
        exact hfree.body_ne_nil (mem_rulesFor.mp hrule).1 hbody
      refine ⟨frame, frames, call, rfl, hcall, ?_, ?_, houtside, ?_, ?_⟩
      · have hascend := Builder.Grows.ascend hgrows
        rw [if_neg hclosed] at hascend
        rw [(hframe.reads.of_call? hcall).1]
        exact hascend
      · exact hframe.advance List.singleton_append (fun _ hshape => hshape) htarget
      · rw [← OpenNode.complete_nil]
        exact hcomplete
      · exact Nat.le_of_succ_le hdepth

/-- A call opens a node for the tree that comes next, with its children to come. -/
theorem KeepsTo.enter {index : Nat} {label : String} {children : List Shape}
    (h : grammar.KeepsTo start network bound goal inner (.node index label none children :: rest)
      path configuration)
    (hknown : network.machine? label = some (grammar.machine label)) :
    grammar.KeepsTo start network bound goal
      { index := configuration.recorder.tree.nodes.length, label } children ((inner, rest) :: path)
      ⟨.start (grammar.machine label), configuration.active :: configuration.frames,
        configuration.recorder.descend label⟩ := by
  obtain ⟨hgrows, hpursues, hexpects, hcomplete, hdepth⟩ := h
  have hparses := hpursues.parses _ List.mem_cons_self
  have hnested := hpursues.nested _ List.mem_cons_self rfl
  refine ⟨hgrows.descend label, ?_, ⟨?_, hexpects⟩, ?_, ?_⟩
  · exact hparses.pursues hknown hnested _
  · refine ⟨hpursues.automaton_eq, hpursues.known, hpursues.located, hpursues.rule, ?_, ?_⟩
    · exact fun shape hshape => hpursues.parses shape (List.mem_cons_of_mem _ hshape)
    · exact fun shape hshape => hpursues.nested shape (List.mem_cons_of_mem _ hshape)
  · rw [OpenNode.bare_complete_open _ index]
    exact hcomplete
  · rw [List.length_cons]
    omega

/-- A token that comes next is taken as a leaf. -/
theorem KeepsTo.take {index : Nat} {token : Token}
    (h : grammar.KeepsTo start network bound goal inner
      (.node index token.category (some token) [] :: rest) path configuration)
    (htoken : configuration.recorder.token = some token) :
    ∃ transition built, configuration.active.current.transition? token.category =
        some transition ∧
      grammar.KeepsTo start network bound goal (inner.add built) rest path
        ⟨⟨configuration.active.automaton, transition.target⟩, configuration.frames,
          record transition.action configuration.active.machine configuration.recorder⟩ := by
  obtain ⟨hgrows, hpursues, hexpects, hcomplete, hdepth⟩ := h
  have hcontinues := hpursues.continues List.map_cons
  obtain ⟨target, hstep, htarget⟩ := hcontinues.step? hpursues.located
  obtain ⟨transition, htransition, rfl⟩ := Option.map_eq_some_iff.mp hstep
  rw [← hpursues.current_eq] at htransition
  let built := Shape.node configuration.recorder.tree.nodes.length token.category (some token) []
  have hbare : built.bare = (Shape.node index token.category (some token) []).bare := by simp [built]
  have hadvanced : grammar.Pursues network bound configuration.frames.length
      ⟨configuration.active.automaton, transition.target⟩ (inner.add built) [] rest :=
    hpursues.advance (by rfl) (fun _ hshape => List.mem_cons_of_mem _ hshape) (by exact htarget)
  refine ⟨transition, built, htransition, ?_, hadvanced, hexpects, ?_, hdepth⟩
  · rw [(hpursues.reads.of_transition? htransition).1]
    exact hgrows.appendLeaf htoken
  · rw [OpenNode.bare_complete_add hbare]
    exact hcomplete

theorem keepsTo_start (hnetwork : grammar.Describes start network) {index : Nat}
    {children : List Shape} (hparses : grammar.Parses (.node index start none children))
    (hnested : Shape.nesting (.node index start none children) ≤ bound) :
    grammar.KeepsTo start network bound (.node index start none children)
      { index := Tree.root, label := start } children []
      ((Session.start network).configuration (Builder.start network.start.name)) := by
  have hmachine : network.machine? start = some (grammar.machine start) := by
    have hsome : (network.machine? start).isSome := by
      rw [Network.machine?, List.find?_isSome]
      refine ⟨network.start, network.start_mem, decide_eq_true ?_⟩
      rw [hnetwork.start_eq, name_machine]
    obtain ⟨machine, hfound⟩ := Option.isSome_iff_exists.mp hsome
    rw [hfound, hnetwork.callee_eq hfound]
  rw [Session.configuration, Session.active_start, Session.frames_start, hnetwork.start_eq,
    name_machine]
  refine ⟨Builder.grows_start start, ?_, rfl, ?_, Nat.zero_le _⟩
  · exact hparses.pursues hmachine (by rwa [List.length_nil, Nat.zero_add]) _
  · simp [OpenNode.complete, OpenNode.closeWith]

end Grammar

end TransitionNetwork
