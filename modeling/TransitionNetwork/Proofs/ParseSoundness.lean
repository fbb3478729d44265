import TransitionNetwork.Proofs.AnalyserRuns
import TransitionNetwork.Proofs.CompiledNetwork
import TransitionNetwork.Proofs.OpenTree

/-! Accepted sentences have derivation trees. While a session over a compiled grammar is at work, every
machine that is in control or waits has an open node of the tree, and the finished trees below that node
are what the state of the machine spells, but for calls that have found nothing. `Parsing` states this
together with the tokens consumed so far. It holds at the start, every move keeps it, and a token that is
taken either extends it or leads to the error state, from which no sentence is accepted. -/

namespace TransitionNetwork

namespace Grammar

/-- An epsilon element stands alone on its right-hand side. -/
def EpsilonAlone (grammar : Grammar) : Prop :=
  ∀ rule ∈ grammar.rules, .epsilon ∈ rule.elements → rule.elements = [.epsilon]

instance (grammar : Grammar) : Decidable grammar.EpsilonAlone :=
  inferInstanceAs (Decidable (∀ rule ∈ grammar.rules, _ → _))

/-! ### One machine and its node -/

/-- The symbols that lead to a state: inside the trie those it spells, at the end the body of a rule. -/
inductive LeadsTo (grammar : Grammar) (nonterminal : String) : List Symbol → Nat → Prop
  | inside {state : Nat} (hfinal : state ≠ Trie.final) (herror : state ≠ Trie.error) :
      LeadsTo grammar nonterminal (grammar.word nonterminal state) state
  | final {rule : Rule} (hrule : rule ∈ grammar.rulesFor nonterminal) :
      LeadsTo grammar nonterminal rule.body Trie.final

/-- A machine that has found the finished trees below an open node, and nothing else. -/
structure WorksOn (grammar : Grammar) (cursor : Cursor) (node : OpenNode) : Prop where
  automaton_eq : cursor.automaton = grammar.machine node.label
  derived : ∀ shape ∈ node.closed, grammar.Derived shape
  found : ∃ symbols, grammar.LeadsTo node.label symbols cursor.state ∧
    grammar.Condenses symbols (node.closed.map Shape.symbol)

variable {grammar : Grammar} {cursor : Cursor} {node : OpenNode}

theorem WorksOn.cursor_eq (h : grammar.WorksOn cursor node) :
    cursor = grammar.cursor node.label cursor.state := by
  rw [Grammar.cursor, ← h.automaton_eq]

theorem worksOn_start (grammar : Grammar) (index : Nat) (label : String) :
    grammar.WorksOn (.start (grammar.machine label)) { index, label } := by
  have hleads : grammar.LeadsTo label (grammar.word label Trie.root) Trie.root :=
    .inside (by decide) (by decide)
  rw [(grammar.spells_word label).word_root] at hleads
  exact ⟨rfl, by simp, [], hleads, .nil⟩

/-- Unless the machine is at the end of a rule, its state spells what it has found. -/
theorem WorksOn.reads (h : grammar.WorksOn cursor node) (hfinal : cursor.state ≠ Trie.final) :
    Trie.Reads (grammar.rulesFor node.label) (grammar.word node.label) cursor.state cursor.current ∧
      grammar.Condenses (grammar.word node.label cursor.state) (node.closed.map Shape.symbol) := by
  obtain ⟨symbols, hleads, hcondenses⟩ := h.found
  have hcursor := h.cursor_eq
  generalize cursor.state = state at *
  subst hcursor
  cases hleads with
  | inside _ herror => exact ⟨reads_cursor hfinal herror, hcondenses⟩
  | final => exact absurd rfl hfinal

/-- A machine at the end of a rule has no moves left. -/
theorem WorksOn.ne_final (h : grammar.WorksOn cursor node) {target : Nat}
    (htarget : target ∈ cursor.current.targets) : cursor.state ≠ Trie.final := by
  intro hfinal
  rw [h.cursor_eq, hfinal, current_final] at htarget
  cases htarget

/-- One more symbol for which there is a tree. -/
theorem WorksOn.keep (h : grammar.WorksOn cursor node) (hfinal : cursor.state ≠ Trie.final)
    {target : Nat} (htarget : Trie.error < target) {shape : Shape} (hshape : grammar.Derived shape)
    (hword : grammar.word node.label target =
      grammar.word node.label cursor.state ++ [shape.symbol]) :
    grammar.WorksOn ⟨cursor.automaton, target⟩ (node.add shape) := by
  refine ⟨h.automaton_eq, ?_, _, .inside ?_ (Nat.ne_of_gt htarget), ?_⟩
  · intro other hother
    rcases List.mem_append.mp hother with hold | hnew
    · exact h.derived other hold
    · rw [List.mem_singleton.mp hnew]
      exact hshape
  · exact Nat.ne_of_gt (Nat.lt_trans (by decide) htarget)
  · change grammar.Condenses (grammar.word node.label target) _
    rw [hword, OpenNode.add, List.map_append]
    exact (h.reads hfinal).2.append (.keep _ .nil)

/-- One more nonterminal for which nothing was found. -/
theorem WorksOn.skip (h : grammar.WorksOn cursor node) (hfinal : cursor.state ≠ Trie.final)
    {target : Nat} (htarget : Trie.error < target) {name : String}
    (hempty : grammar.DerivesEmpty name)
    (hword : grammar.word node.label target =
      grammar.word node.label cursor.state ++ [.nonterminal name]) :
    grammar.WorksOn ⟨cursor.automaton, target⟩ node := by
  refine ⟨h.automaton_eq, h.derived, _, .inside ?_ (Nat.ne_of_gt htarget), ?_⟩
  · exact Nat.ne_of_gt (Nat.lt_trans (by decide) htarget)
  · rw [hword, ← List.append_nil (node.closed.map Shape.symbol)]
    exact (h.reads hfinal).2.append (.drop hempty .nil)

/-- An epsilon move goes from the end of a right-hand side to the final state. -/
theorem WorksOn.epsilon (hepsilon : grammar.EpsilonAlone) (h : grammar.WorksOn cursor node)
    {epsilon : Transition} (hmove : cursor.current.epsilon = some epsilon) :
    epsilon.action = none ∧ grammar.WorksOn ⟨cursor.automaton, epsilon.target⟩ node := by
  obtain ⟨hreads, hcondenses⟩ := h.reads (h.ne_final (State.target_mem_of_epsilon hmove))
  obtain ⟨htarget, haction, rule, hrule, hbody⟩ := hreads.epsilon epsilon hmove
  have hword : grammar.word node.label cursor.state = rule.body := by
    rcases hbody with hbody | ⟨hroot, hmem⟩
    · exact hbody.symm
    · have helements := hepsilon rule (mem_rulesFor.mp hrule).1 hmem
      rw [hroot, (grammar.spells_word node.label).word_root, Rule.body, helements]
      decide
  refine ⟨haction, h.automaton_eq, h.derived, rule.body, ?_, ?_⟩
  · rw [htarget]
    exact .final hrule
  · rw [← hword]
    exact hcondenses

/-- Where a machine accepts, what it has found is the body of a rule. -/
theorem WorksOn.rule_of_atAccept (h : grammar.WorksOn cursor node)
    (haccept : cursor.atAccept = true) :
    ∃ rule ∈ grammar.rulesFor node.label,
      grammar.Condenses rule.body (node.closed.map Shape.symbol) := by
  rw [h.cursor_eq] at haccept
  have hfinal := atAccept_cursor.mp haccept
  obtain ⟨symbols, hleads, hcondenses⟩ := h.found
  rw [hfinal] at hleads
  cases hleads with
  | inside hne _ => exact absurd rfl hne
  | final hrule => exact ⟨_, hrule, hcondenses⟩

/-! ### All machines and their nodes -/

/-- The frames of a session and the open nodes outside of the innermost one, which is named after the
machine that is called. -/
def Waits (grammar : Grammar) (start : String) : String → List Cursor → List OpenNode → Prop
  | callee, [], [] => callee = start
  | callee, frame :: frames, node :: path => grammar.WorksOn frame node ∧
      frame.current.hasCall callee = true ∧ Waits grammar start node.label frames path
  | _, _, _ => False

/-- The machine in control and those that wait have found the tokens, and the builder has the open
nodes they work on. -/
def Parsing (grammar : Grammar) (start : String) (tokens : List Token)
    (configuration : Configuration Builder) : Prop :=
  ∃ inner path, configuration.recorder.Grows inner path ∧
    grammar.WorksOn configuration.active inner ∧
    grammar.Waits start inner.label configuration.frames path ∧ inner.tokens path = tokens

variable {start : String} {network : Network} {limits : Limits} {symbol : Option String}
  {tokens : List Token} {before after : Configuration Builder}

theorem parsing_start (hnetwork : grammar.Describes start network) :
    grammar.Parsing start [] ((Session.start network).configuration
      (Builder.start network.start.name)) := by
  rw [Session.configuration, Session.active_start, Session.frames_start, hnetwork.start_eq,
    name_machine]
  exact ⟨_, _, Builder.grows_start start, worksOn_start grammar Tree.root start, rfl, rfl⟩

/-- A call opens a node for the machine that is called. -/
theorem Parsing.enter {active : Cursor} {frames : List Cursor} {builder : Builder}
    (h : grammar.Parsing start tokens ⟨active, frames, builder⟩) {call : Call}
    (hcall : call ∈ active.current.calls) :
    grammar.Parsing start tokens ⟨.start (grammar.machine call.callee), active :: frames,
      record call.before call.callee builder⟩ := by
  obtain ⟨inner, path, hgrows, hworks, hwaits, htokens⟩ := h
  have hfinal := hworks.ne_final (State.target_mem_of_call hcall)
  obtain ⟨hbefore, -, -, -⟩ := (hworks.reads hfinal).1.call call hcall
  have hfound : active.current.hasCall call.callee = true := by
    rw [State.hasCall, State.call?, List.find?_isSome]
    exact ⟨call, hcall, decide_eq_true rfl⟩
  rw [hbefore]
  refine ⟨_, _, hgrows.descend call.callee, worksOn_start grammar _ call.callee,
    ⟨hworks, hfound, hwaits⟩, ?_⟩
  rw [OpenNode.tokens, htokens]
  exact List.append_nil tokens

/-- A return finishes the node of the machine that accepts. If nothing was found, its nonterminal
derives the empty string and the node is gone. -/
theorem Parsing.leave {active frame : Cursor} {frames : List Cursor} {builder : Builder}
    (h : grammar.Parsing start tokens ⟨active, frame :: frames, builder⟩)
    (haccept : active.atAccept = true) :
    ∃ call, frame.current.call? active.machine = some call ∧
      grammar.Parsing start tokens ⟨⟨frame.automaton, call.target⟩, frames,
        record call.after frame.machine builder⟩ := by
  obtain ⟨inner, path, hgrows, hworks, hwaits, htokens⟩ := h
  obtain ⟨rule, hrule, hbody⟩ := hworks.rule_of_atAccept haccept
  obtain ⟨hrule, hgenerator⟩ := mem_rulesFor.mp hrule
  have hmachine : active.machine = inner.label := by
    rw [Cursor.machine, hworks.automaton_eq, name_machine]
  cases path with
  | nil => exact absurd hwaits id
  | cons outer path =>
      obtain ⟨houter, hcalled, hwaits⟩ := hwaits
      obtain ⟨call, hcall⟩ := Option.isSome_iff_exists.mp hcalled
      have hfinal := houter.ne_final (State.target_mem_of_call (List.mem_of_find?_eq_some hcall))
      obtain ⟨hafter, htarget, hword⟩ := (houter.reads hfinal).1.of_call? hcall
      rw [hmachine]
      refine ⟨call, hcall, ?_⟩
      have hgrows' := hgrows.ascend
      rw [hafter]
      by_cases hclosed : inner.closed = []
      · rw [if_pos hclosed] at hgrows'
        rw [hclosed] at hbody
        have hempty : grammar.DerivesEmpty inner.label := by
          rw [← hgenerator]
          exact (derives_body hrule).trans hbody.derives
        refine ⟨outer, path, hgrows', houter.skip hfinal htarget hempty hword, hwaits, ?_⟩
        rw [← htokens, OpenNode.tokens, hclosed]
        exact (List.append_nil _).symm
      · rw [if_neg hclosed] at hgrows'
        have hderived : grammar.Derived inner.close := by
          rw [OpenNode.close, ← hgenerator]
          exact .node _ hrule hclosed hbody hworks.derived
        refine ⟨outer.add inner.close, path, hgrows',
          houter.keep hfinal htarget hderived hword, hwaits, ?_⟩
        rw [OpenNode.tokens_add, OpenNode.close, Shape.tokens_node, ← htokens]
        rfl

theorem Parsing.move (hnetwork : grammar.Describes start network)
    (hepsilon : grammar.EpsilonAlone) (h : grammar.Parsing start tokens before)
    (hmove : before.Move network limits symbol after) : grammar.Parsing start tokens after := by
  cases hmove with
  | enter heligible _ hcallee =>
      have hmachine := hnetwork.callee_eq hcallee
      subst hmachine
      rw [name_machine]
      exact h.enter (Network.mem_of_eligibleCall? heligible)
  | leave haccept hcall =>
      obtain ⟨call, hfound, hparsing⟩ := h.leave haccept
      rw [hcall] at hfound
      cases hfound
      exact hparsing
  | dismiss haccept hcall =>
      obtain ⟨call, hfound, -⟩ := h.leave haccept
      rw [hcall] at hfound
      cases hfound
  | epsilon hmove =>
      obtain ⟨inner, path, hgrows, hworks, hwaits, htokens⟩ := h
      obtain ⟨haction, hworks'⟩ := hworks.epsilon hepsilon hmove
      rw [haction]
      exact ⟨inner, path, hgrows, hworks', hwaits, htokens⟩

theorem Parsing.moves (hnetwork : grammar.Describes start network)
    (hepsilon : grammar.EpsilonAlone) (h : grammar.Parsing start tokens before)
    (hmoves : before.Moves network limits symbol after) : grammar.Parsing start tokens after := by
  induction hmoves with
  | refl => exact h
  | tail _ hmove ih => exact ih.move hnetwork hepsilon hmove

/-- A token is added as a leaf, or the machine has no use for it and goes to its error state. -/
theorem Parsing.take (h : grammar.Parsing start tokens before) {token : Token}
    (htoken : before.recorder.token = some token) (htake : before.Take token.category after) :
    grammar.Parsing start (tokens ++ [token]) after ∨ grammar.Stuck after := by
  obtain ⟨inner, path, hgrows, hworks, hwaits, htokens⟩ := h
  cases htake with
  | transition htransition =>
      left
      have hmem := List.mem_of_find?_eq_some htransition
      have hfinal := hworks.ne_final (State.target_mem_of_transition hmem)
      obtain ⟨haction, htarget, hword⟩ := (hworks.reads hfinal).1.of_transition? htransition
      rw [haction]
      refine ⟨_, path, hgrows.appendLeaf htoken,
        hworks.keep hfinal htarget (.leaf _ token) hword, hwaits, ?_⟩
      rw [OpenNode.tokens_add, htokens, Shape.tokens_leaf]
      rfl
  | alternate _ _ halternate =>
      right
      have hfinal := hworks.ne_final (State.target_mem_of_alternate halternate)
      have htarget := (hworks.reads hfinal).1.alternate _ halternate
      refine ⟨inner.label, ?_⟩
      rw [Grammar.cursor, ← hworks.automaton_eq, ← htarget]

theorem Parsing.attempt (hnetwork : grammar.Describes start network)
    (hepsilon : grammar.EpsilonAlone) (h : grammar.Parsing start tokens before) {token : Token}
    (htoken : before.recorder.token = some token)
    (hattempt : before.Attempt network limits token.category true after) :
    grammar.Parsing start (tokens ++ [token]) after ∨ grammar.Stuck after := by
  obtain ⟨ready, taken, hready, htake, htaken⟩ := hattempt
  have htoken' : ready.recorder.token = some token :=
    (Builder.token_performs hready.performs).trans htoken
  rcases (h.moves hnetwork hepsilon hready).take htoken' htake with hparsing | hstuck
  · exact .inl (hparsing.moves hnetwork hepsilon htaken)
  · right
    rw [hstuck.moves_eq htaken]
    exact hstuck

/-- A session that is accepted has the tree of a derivation. -/
theorem Parsing.derivationTree {session : Session} {builder : Builder}
    (h : grammar.Parsing start tokens (session.configuration builder))
    (hapart : grammar.TerminalsApart) (hstart : start ∈ grammar.nonterminals)
    (haccepted : session.isAccepted = true) :
    grammar.DerivationTree start tokens builder.tree.shape ∧
      grammar.Derives [.nonterminal start] (categories tokens) := by
  obtain ⟨inner, path, hgrows, hworks, hwaits, htokens⟩ := h
  rw [Session.isAccepted, Bool.and_eq_true, List.isEmpty_iff] at haccepted
  obtain ⟨hframes, haccept⟩ := haccepted
  obtain ⟨rule, hrule, hbody⟩ := hworks.rule_of_atAccept haccept
  obtain ⟨hrule, hgenerator⟩ := mem_rulesFor.mp hrule
  change grammar.Waits start inner.label session.frames path at hwaits
  change builder.Grows inner path at hgrows
  rw [hframes] at hwaits
  cases path with
  | cons outer path => exact absurd hwaits id
  | nil =>
      have hlabel : rule.generator = start := hgenerator.trans hwaits
      rw [hgrows.shape_eq, OpenNode.whole, OpenNode.close, ← hgenerator, ← htokens, ← hlabel]
      refine ⟨derivationTree_node hapart _ hrule (hlabel ▸ hstart) hbody hworks.derived, ?_⟩
      exact derives_tokens_of_condenses hrule hbody fun child hchild =>
        (hworks.derived child hchild).derives

end Grammar

/-! ### Sentences -/

namespace Analyser

variable {grammar : Grammar} {start : String} {analyser after : Analyser} {tokens : List Token}

theorem parsing_of_feed (hnetwork : grammar.Describes start analyser.network)
    (hepsilon : grammar.EpsilonAlone) (h : grammar.Parsing start tokens analyser.configuration)
    {token : Token} (hfeed : analyser.feed token = (true, after)) :
    after.network = analyser.network ∧
      (grammar.Parsing start (tokens ++ [token]) after.configuration ∨
        grammar.Stuck after.configuration) := by
  obtain ⟨session, recorded, hattempt, -, rfl⟩ := feed_of_consumed hfeed
  refine ⟨rfl, ?_⟩
  obtain ⟨inner, path, hgrows, hrest⟩ := h
  have hholding : grammar.Parsing start tokens (analyser.holding token).configuration :=
    ⟨inner, path, hgrows.of_eq rfl rfl, hrest⟩
  rcases hholding.attempt hnetwork hepsilon rfl hattempt with hfound | hstuck
  · obtain ⟨inner, path, hgrows, hrest⟩ := hfound
    exact .inl ⟨inner, path, hgrows.of_eq rfl rfl, hrest⟩
  · exact .inr hstuck

theorem derivationTree_of_settle (hnetwork : grammar.Describes start analyser.network)
    (hepsilon : grammar.EpsilonAlone) (hapart : grammar.TerminalsApart)
    (hstart : start ∈ grammar.nonterminals)
    (h : grammar.Parsing start tokens analyser.configuration)
    (hsettle : analyser.settle = (true, after)) :
    grammar.DerivationTree start tokens after.tree.shape ∧
      grammar.Derives [.nonterminal start] (Grammar.categories tokens) := by
  obtain ⟨session, recorded, hmoves, heq⟩ := settle_eq analyser
  rw [heq] at hsettle
  obtain ⟨haccepted, rfl⟩ := Prod.mk.inj hsettle
  exact (h.moves hnetwork hepsilon hmoves).derivationTree hapart hstart haccepted

/-- The induction is on the tokens to come; `found` are those consumed before. -/
theorem derivationTree_of_feedAll (hnetwork : grammar.Describes start analyser.network)
    (hepsilon : grammar.EpsilonAlone) (hapart : grammar.TerminalsApart)
    (hstart : start ∈ grammar.nonterminals) {found : List Token}
    (h : grammar.Parsing start found analyser.configuration)
    (haccepted : analyser.feedAll tokens = (true, after)) :
    grammar.DerivationTree start (found ++ tokens) after.tree.shape ∧
      grammar.Derives [.nonterminal start] (Grammar.categories (found ++ tokens)) := by
  induction tokens generalizing analyser found with
  | nil =>
      rw [List.append_nil]
      exact derivationTree_of_settle hnetwork hepsilon hapart hstart h haccepted
  | cons token tokens ih =>
      rw [feedAll] at haccepted
      split at haccepted
      · next fed hfeed =>
        obtain ⟨hsame, hparsing | hstuck⟩ := parsing_of_feed hnetwork hepsilon h hfeed
        · rw [List.append_cons]
          exact ih (hsame ▸ hnetwork) hparsing haccepted
        · have hrejected : (fed.feedAll tokens).1 = false := feedAll_of_stuck hstuck
          rw [haccepted] at hrejected
          cases hrejected
      · cases haccepted

/-- Whenever an analyser over a compiled grammar accepts tokens, its tree is a derivation tree for
them without the empty subtrees, and the grammar derives their categories. -/
theorem analyseTokens_sound {compiled : GrammarNetwork}
    (hcompile : grammar.compile = .ok compiled) (hepsilon : grammar.EpsilonAlone)
    {limits : AnalyserLimits} (hreachable : Reachable compiled.network limits analyser)
    (haccepted : analyser.analyseTokens tokens = (true, after)) :
    grammar.DerivationTree compiled.start tokens after.tree.shape ∧
      grammar.Derives [.nonterminal compiled.start] (Grammar.categories tokens) := by
  obtain ⟨hcheck, hnetwork⟩ := Grammar.describes_of_compile hcompile
  rw [hreachable.analyseTokens_eq] at haccepted
  obtain ⟨-, hstart, hwell⟩ := Grammar.check_eq_ok hcheck
  have hparsing : grammar.Parsing compiled.start []
      (Analyser.start compiled.network limits).configuration := Grammar.parsing_start hnetwork
  exact derivationTree_of_feedAll hnetwork hepsilon hwell.terminalsApart hstart hparsing haccepted

/-- A clause is a verb with a noun before it and one behind it, each of which may be missing. -/
def clause : Grammar where
  start := some "S"
  nonterminals := ["S", "N"]
  terminals := ["v", "n"]
  rules := [⟨"S", [.nonterminal "N", .terminal "v", .nonterminal "N"]⟩, ⟨"N", [.terminal "n"]⟩,
    ⟨"N", [.epsilon]⟩]

/-- The second noun is missing, so the tree has no node for it. -/
theorem clause_derivationTree :
    ∃ compiled after, clause.compile = .ok compiled ∧ clause.EpsilonAlone ∧
      (Analyser.start compiled.network).analyseTokens [⟨"n", "dogs", []⟩, ⟨"v", "bark", []⟩] =
        (true, after) ∧
      clause.DerivationTree compiled.start [⟨"n", "dogs", []⟩, ⟨"v", "bark", []⟩] after.tree.shape ∧
      clause.Derives [.nonterminal compiled.start] [.terminal "n", .terminal "v"] := by
  have hepsilon : clause.EpsilonAlone := by decide
  have haccepted : (match clause.compile with
      | .ok compiled => ((Analyser.start compiled.network).analyseTokens
          [⟨"n", "dogs", []⟩, ⟨"v", "bark", []⟩]).1
      | .error _ => false) = true := by cbv
  split at haccepted
  · next compiled hcompile =>
    have hsound := analyseTokens_sound hcompile hepsilon .start (Prod.ext haccepted rfl)
    exact ⟨compiled, _, hcompile, hepsilon, Prod.ext haccepted rfl, hsound.1, hsound.2⟩
  · cases haccepted

end Analyser

end TransitionNetwork
