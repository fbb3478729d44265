import TransitionNetwork.Proofs.LookaheadTables
import TransitionNetwork.Proofs.TreeGuidance
import TransitionNetwork.Proofs.ViablePrefix

/-! Sentences of a predictive grammar are accepted. A session that keeps to a derivation tree consumes the
next token of the tree: machines whose rules have ended return, then the nonterminals that begin with the
token are called, and then the token is taken. Behind the last token settling ends the rules that are open.
As many attempts and calls as nonterminals are nested are enough for a token, and one step more for
settling. -/

namespace TransitionNetwork

namespace Grammar

variable {grammar : Grammar} {start : String} {network : Network} {bound : Nat} {goal : Shape}
  {inner : OpenNode} {rest : List Shape} {path : List PendingNode}

/-! ### One token -/

variable {limits : Limits} {session : Session} {builder : Builder} {token : Token}
  {tokens : List Token} {attempts calls : Nat}

/-- The journal and the token of the builder do not matter. -/
theorem KeepsTo.of_eq {other : Builder}
    (h : grammar.KeepsTo start network bound goal inner rest path (session.configuration builder))
    (htree : other.tree = builder.tree) (hcursor : other.cursor = builder.cursor) :
    grammar.KeepsTo start network bound goal inner rest path (session.configuration other) :=
  ⟨h.grows.of_eq htree hcursor, h.pursues, h.expects, h.complete_eq, h.depth_le⟩

/-- The session keeps to the tree, and these tokens are still to come. -/
def KeepsOn (grammar : Grammar) (start : String) (network : Network) (bound : Nat) (goal : Shape)
    (tokens : List Token) (configuration : Configuration Builder) : Prop :=
  ∃ inner rest path, grammar.KeepsTo start network bound goal inner rest path configuration ∧
    (toCome rest path).flatMap Shape.tokens = tokens

/-- While the session keeps to the tree, the limits leave room for one more round. -/
theorem KeepsTo.bounds (hlimit : bound ≤ limits.maxCallDepth)
    (h : grammar.KeepsTo start network bound goal inner rest path (session.configuration builder))
    (hattempts : attempts ≤ limits.maxLocalAttempts) (hcalls : calls ≤ session.frames.length) :
    attempts ≤ limits.maxLocalAttempts ∧ calls ≤ limits.maxCallDepth ∧ session.atError = false := by
  have hdepth : session.frames.length ≤ bound := h.depth_le
  exact ⟨hattempts, by omega, h.pursues.atAccept_eq.2⟩

theorem KeepsTo.consume_token (hguides : grammar.Guides start network) {index : Nat}
    (h : grammar.KeepsTo start network bound goal inner
      (.node index token.category (some token) [] :: rest) path (session.configuration builder))
    (hbounds : attempts ≤ limits.maxLocalAttempts ∧ calls ≤ limits.maxCallDepth ∧
      session.atError = false) (htoken : builder.token = some token) :
    ∃ after recorded built, session.consume network limits token.category attempts calls builder =
        (true, after, recorded) ∧
      grammar.KeepsTo start network bound goal (inner.add built) rest path
        (Session.configuration after recorded) := by
  have heligible : network.eligibleCall? (some token.category) session.active.current.calls = none :=
    h.pursues.decides_token hguides rfl
  obtain ⟨transition, built, htransition, hkeeps⟩ := h.take htoken
  have happly : session.active.apply token.category builder =
      (true, ⟨session.active.automaton, transition.target⟩,
        record transition.action session.active.machine builder) :=
    Cursor.apply_of_transition? htransition builder
  have haccept : (session.control ⟨session.active.automaton, transition.target⟩).active.atAccept =
      false := by
    rw [Session.active_control]
    exact hkeeps.pursues.atAccept_eq.1
  rw [Session.consume_of_apply hbounds (Session.enterCall?_of_none heligible builder) happly,
    if_pos rfl, Session.leaveCall_of_not_atAccept haccept]
  refine ⟨_, _, built, rfl, ?_⟩
  rw [Session.configuration, Session.active_control, Session.frames_control]
  exact hkeeps

theorem KeepsTo.consume_call (hguides : grammar.Guides start network)
    (hlimit : bound ≤ limits.maxCallDepth) {index : Nat} {label : String} {children : List Shape}
    (h : grammar.KeepsTo start network bound goal inner (.node index label none children :: rest)
      path (session.configuration builder))
    (hbounds : attempts ≤ limits.maxLocalAttempts ∧ calls ≤ limits.maxCallDepth ∧
      session.atError = false)
    (htokens : Shape.tokens (.node index label none children) = token :: tokens) :
    ∃ entered : Session, ∃ opened,
      session.consume network limits token.category attempts calls builder =
        entered.consume network limits token.category attempts (calls + 1)
          (builder.descend label) ∧
      entered.frames.length = session.frames.length + 1 ∧
      grammar.KeepsTo start network bound goal opened children ((inner, rest) :: path)
        (entered.configuration (builder.descend label)) := by
  obtain ⟨call, heligible, rfl, hbefore, hknown⟩ := h.pursues.decides_call hguides rfl htokens
  have hnested := h.pursues.nested _ List.mem_cons_self rfl
  have hdepth : session.frames.length < limits.maxCallDepth := by
    change session.frames.length + 1 + _ ≤ bound at hnested
    omega
  let entered := { session with frames := session.active :: session.frames }.control
    (.start (grammar.machine call.callee))
  have henter : session.enterCall? network limits (some token.category) builder =
      some (entered, builder.descend call.callee) := by
    rw [Session.enterCall?_of_some heligible hdepth hknown, hbefore, name_machine]
    rfl
  have hkeeps := h.enter hknown
  have haccept : entered.active.atAccept = false := by
    rw [Session.active_control]
    exact hkeeps.pursues.atAccept_eq.1
  refine ⟨entered, { index := builder.tree.nodes.length, label := call.callee }, ?_, rfl, ?_⟩
  · rw [Session.consume_of_enterCall? hbounds henter, Session.leaveCall_of_not_atAccept haccept]
  · rw [Session.configuration, Session.active_control, Session.frames_control]
    exact hkeeps

/-- A token with which a tree to come begins is consumed. The induction is on this tree: a leaf is taken,
and a nonterminal is called, whose first child begins with the token then. -/
theorem KeepsTo.consume_tree (hguides : grammar.Guides start network)
    (hlimit : bound ≤ limits.maxCallDepth) (hattempts : attempts ≤ limits.maxLocalAttempts)
    {shape : Shape} (hparses : grammar.Parses shape)
    (h : grammar.KeepsTo start network bound goal inner (shape :: rest) path
      (session.configuration builder))
    (htoken : builder.token = some token) (hcalls : calls ≤ session.frames.length)
    (htokens : (toCome (shape :: rest) path).flatMap Shape.tokens = token :: tokens) :
    ∃ after recorded, session.consume network limits token.category attempts calls builder =
        (true, after, recorded) ∧
      grammar.KeepsOn start network bound goal tokens (Session.configuration after recorded) := by
  induction hparses generalizing session builder inner rest path calls with
  | leaf index leaf =>
      rw [toCome, List.cons_append, List.flatMap_cons, Shape.tokens_leaf, Option.toList_some,
        List.singleton_append] at htokens
      obtain ⟨rfl, hrest⟩ := List.cons.inj htokens
      obtain ⟨after, recorded, built, hconsume, hkeeps⟩ := h.consume_token hguides
        (h.bounds hlimit hattempts hcalls) htoken
      exact ⟨after, recorded, hconsume, inner.add built, rest, path, hkeeps, hrest⟩
  | @node index rule hrule children hbody hchildren ih =>
      have hparses : grammar.Parses (.node index rule.generator none children) :=
        .node index hrule hbody hchildren
      obtain ⟨child, others, rfl⟩ := hguides.free.children_eq_cons hrule hbody
      obtain ⟨first, firsts, hfirst⟩ := List.exists_cons_of_ne_nil (hparses.tokens_ne_nil hguides.free)
      rw [toCome, List.cons_append, List.flatMap_cons] at htokens
      have hsame : first = token := by
        rw [hfirst, List.cons_append] at htokens
        exact (List.cons.inj htokens).1
      rw [hsame] at hfirst
      obtain ⟨entered, opened, hconsume, hdepth, hkeeps⟩ := h.consume_call hguides
        hlimit (h.bounds hlimit hattempts hcalls) hfirst
      rw [hconsume]
      refine ih child List.mem_cons_self hkeeps htoken (by omega) ?_
      rw [Shape.tokens_node] at htokens
      rw [toCome, List.flatMap_cons, List.flatMap_append, List.flatMap_append]
      rw [List.flatMap_append] at htokens
      exact htokens

/-- At its final state the machine returns. -/
theorem KeepsTo.leaveCall (hfree : grammar.EpsilonFree) {outer : OpenNode} {others : List Shape}
    (h : grammar.KeepsTo start network bound goal inner [] ((outer, others) :: path)
      (session.configuration builder)) :
    ∃ left recorded,
      (session.control ⟨session.active.automaton, Trie.final⟩).leaveCall builder =
        (left, recorded) ∧
      left.frames.length + 1 = session.frames.length ∧ recorded.token = builder.token ∧
      grammar.KeepsTo start network bound goal (outer.add inner.close) others path
        (left.configuration recorded) := by
  obtain ⟨frame, frames, call, hframes, hcall, hkeeps⟩ := h.leave hfree
  obtain ⟨-, -, -, -, hfinal⟩ := h.pursues.epsilon_eq hfree
  let ended := session.control ⟨session.active.automaton, Trie.final⟩
  have haccept : ended.active.atAccept = true := by
    rw [Session.active_control, Cursor.atAccept, Cursor.current]
    change (session.active.automaton.state Trie.final).isAccept = true
    exact hfinal ▸ rfl
  have hreturn : frame.current.call? ended.active.machine = some call := by
    rw [Session.active_control]
    exact h.pursues.machine_eq.symm ▸ hcall
  have hwaiting : ended.frames = frame :: frames := hframes
  refine ⟨_, _, Session.leaveCall_of_call? hwaiting haccept hreturn builder, ?_, ?_, ?_⟩
  · change session.frames = _ at hframes
    rw [Session.frames_control, hframes, List.length_cons]
  · exact Builder.token_performs (Recorder.performs_record _ _ _)
  · rw [Session.configuration, Session.active_control, Session.frames_control]
    exact hkeeps

/-- Where a rule has ended and a token is to come outside, the machine returns. -/
theorem KeepsTo.consume_end (hguides : grammar.Guides start network)
    {outer : OpenNode} {others : List Shape}
    (h : grammar.KeepsTo start network bound goal inner [] ((outer, others) :: path)
      (session.configuration builder))
    (hbounds : attempts ≤ limits.maxLocalAttempts ∧ calls ≤ limits.maxCallDepth ∧
      session.atError = false)
    (htokens : (toCome others path).flatMap Shape.tokens = token :: tokens) :
    ∃ left recorded,
      session.consume network limits token.category attempts calls builder =
        Session.consume network limits token.category (attempts + 1) calls left recorded ∧
      left.frames.length + 1 = session.frames.length ∧ recorded.token = builder.token ∧
      grammar.KeepsTo start network bound goal (outer.add inner.close) others path
        (left.configuration recorded) := by
  have hfollow := h.expects.follow hguides.free htokens
  obtain ⟨heligible, hnone⟩ := h.pursues.decides_end hguides hfollow
  obtain ⟨epsilon, hepsilon, htarget, haction, hfinal⟩ := h.pursues.epsilon_eq hguides.free
  rw [← htarget] at hfinal
  have happly : session.active.apply token.category builder =
      (false, ⟨session.active.automaton, epsilon.target⟩, builder) :=
    Cursor.apply_of_ended hnone hepsilon haction hfinal builder
  rw [htarget] at happly
  obtain ⟨left, recorded, hleave, hkeeps⟩ := h.leaveCall hguides.free
  refine ⟨left, recorded, ?_, hkeeps⟩
  rw [Session.consume_of_apply hbounds (Session.enterCall?_of_none heligible builder) happly, hleave]
  rfl

/-- The next token is consumed. The induction is on the frames: while rules have ended the machines in
control return, up to one that has a tree to come. Attempts and frames together do not grow meanwhile. -/
theorem KeepsTo.consume (hguides : grammar.Guides start network)
    (hdepth : bound ≤ limits.maxCallDepth) (hlimit : bound ≤ limits.maxLocalAttempts)
    (h : grammar.KeepsTo start network bound goal inner rest path (session.configuration builder))
    (htoken : builder.token = some token)
    (hattempts : attempts + session.frames.length ≤ bound)
    (htokens : (toCome rest path).flatMap Shape.tokens = token :: tokens) :
    ∃ after recorded, session.consume network limits token.category attempts 0 builder =
        (true, after, recorded) ∧
      grammar.KeepsOn start network bound goal tokens (Session.configuration after recorded) := by
  induction path generalizing session builder inner rest attempts with
  | nil =>
      cases rest with
      | nil => cases htokens
      | cons shape rest =>
          exact h.consume_tree hguides hdepth (by omega)
            (h.pursues.parses shape List.mem_cons_self) htoken (Nat.zero_le _) htokens
  | cons outer path ih =>
      have hroom : attempts ≤ limits.maxLocalAttempts := by omega
      cases rest with
      | nil =>
          obtain ⟨left, recorded, hconsume, hframes, hsame, hkeeps⟩ :=
            h.consume_end hguides (h.bounds hdepth hroom (Nat.zero_le _)) htokens
          rw [hconsume]
          exact ih hkeeps (hsame.trans htoken) (by omega) htokens
      | cons shape rest =>
          exact h.consume_tree hguides hdepth hroom
            (h.pursues.parses shape List.mem_cons_self) htoken (Nat.zero_le _) htokens

/-! ### Settling -/

/-- Without frames and trees to come, one step of settling ends the rule of the start symbol. -/
theorem KeepsTo.settle_last (hfree : grammar.EpsilonFree)
    (h : grammar.KeepsTo start network bound goal inner [] [] (session.configuration builder))
    (steps : Nat) :
    ∃ after, session.settle network limits (steps + 1) builder = (after, builder) ∧
      after.isAccepted = true ∧ builder.tree.shape.bare = goal.bare := by
  obtain ⟨epsilon, hepsilon, htarget, haction, hfinal⟩ := h.pursues.epsilon_eq hfree
  have hframes : session.frames = [] := by
    have hexpects : grammar.Expects start network bound inner.label session.frames [] := h.expects
    cases hcase : session.frames with
    | nil => rfl
    | cons frame frames =>
        rw [hcase] at hexpects
        exact absurd hexpects id
  let ended := session.control ⟨session.active.automaton, Trie.final⟩
  have hcurrent : ended.active.current = { name := Trie.finalName, kind := .accept } := by
    rw [Session.active_control]
    exact hfinal
  have hleave : ended.leaveCall builder = (ended, builder) := by
    rw [Session.leaveCall, Session.frames_control, hframes]
  have heligible : network.eligibleCall? none ended.active.current.calls = none := by
    rw [hcurrent]
    rfl
  have hsettled : ended.unsettled network = false := by
    rw [Session.unsettled, heligible, hcurrent, Session.frames_control, hframes]
    rfl
  refine ⟨ended, ?_, ?_, ?_⟩
  · rw [Session.settle_of_epsilon hepsilon haction htarget hleave heligible,
      Session.settle_of_settled hsettled]
  · rw [Session.isAccepted, Session.frames_control, hframes, Cursor.atAccept, hcurrent]
    rfl
  · have hshape : builder.tree.shape = inner.whole [] := h.grows.shape_eq
    have hcomplete := h.complete_eq
    rw [OpenNode.complete, OpenNode.closeWith, List.append_nil] at hcomplete
    rw [hshape]
    exact hcomplete

/-- Without trees to come, settling ends one rule in each step. The induction is on the frames. -/
theorem KeepsTo.settle (hnetwork : grammar.Describes start network) (hfree : grammar.EpsilonFree)
    (h : grammar.KeepsTo start network bound goal inner [] path (session.configuration builder))
    (hdone : path.flatMap Prod.snd = []) {steps : Nat} (hsteps : session.frames.length < steps) :
    ∃ after recorded, session.settle network limits steps builder = (after, recorded) ∧
      after.isAccepted = true ∧ recorded.tree.shape.bare = goal.bare := by
  obtain ⟨steps, rfl⟩ := Nat.exists_eq_add_one_of_ne_zero (Nat.ne_zero_of_lt hsteps)
  induction path generalizing session builder inner steps with
  | nil =>
      obtain ⟨after, hsettle, haccepted⟩ := h.settle_last hfree steps
      exact ⟨after, builder, hsettle, haccepted⟩
  | cons outer path ih =>
      obtain ⟨epsilon, hepsilon, htarget, haction, -⟩ := h.pursues.epsilon_eq hfree
      obtain ⟨left, recorded, hleave, hframes, -, hkeeps⟩ := h.leaveCall hfree
      have heligible : network.eligibleCall? none left.active.current.calls = none :=
        Network.eligibleCall?_eq_none fun call _ => hnetwork.not_startable_none hfree call.callee
      rw [List.flatMap_cons, List.append_eq_nil_iff] at hdone
      rw [hdone.1] at hkeeps
      rw [Session.settle_of_epsilon hepsilon haction htarget hleave heligible]
      obtain ⟨steps, rfl⟩ : ∃ fewer, steps = fewer + 1 := ⟨steps - 1, by omega⟩
      exact ih hkeeps hdone.2 steps (by omega)

end Grammar

namespace Analyser

variable {grammar : Grammar} {start : String} {analyser : Analyser} {bound : Nat} {goal : Shape}
  {tokens : List Token}

open Grammar

theorem settle_of_keepsOn (hnetwork : grammar.Describes start analyser.network)
    (hfree : grammar.EpsilonFree) (hsteps : bound < analyser.limits.session.maxSettleSteps)
    (h : grammar.KeepsOn start analyser.network bound goal [] analyser.configuration) :
    ∃ after, analyser.settle = (true, after) ∧ after.tree.shape.bare = goal.bare := by
  obtain ⟨inner, rest, path, hkeeps, htokens⟩ := h
  have hdone : toCome rest path = [] := by
    rw [List.flatMap_eq_nil_iff] at htokens
    apply List.eq_nil_iff_forall_not_mem.mpr
    intro shape hshape
    exact (hkeeps.parses shape hshape).tokens_ne_nil hfree (htokens shape hshape)
  obtain ⟨rfl, hpath⟩ := List.append_eq_nil_iff.mp hdone
  obtain ⟨session, recorded, hsettle, haccepted, hshape⟩ := hkeeps.settle hnetwork hfree hpath
    (Nat.lt_of_le_of_lt hkeeps.depth_le hsteps)
  refine ⟨{ analyser with session, builder := recorded.commit }, ?_, hshape⟩
  rw [settle, Session.finish, hsettle, ← haccepted]

theorem feed_of_keepsOn (hguides : grammar.Guides start analyser.network)
    (hdepth : bound ≤ analyser.limits.session.maxCallDepth)
    (hattempts : bound ≤ analyser.limits.session.maxLocalAttempts) {token : Token}
    (h : grammar.KeepsOn start analyser.network bound goal (token :: tokens)
      analyser.configuration) :
    ∃ session builder, analyser.feed token = (true, { analyser with session, builder }) ∧
      grammar.KeepsOn start analyser.network bound goal tokens
        (Session.configuration session builder) := by
  obtain ⟨inner, rest, path, hkeeps, htokens⟩ := h
  have hholding : grammar.KeepsTo start analyser.network bound goal inner rest path
      (analyser.session.configuration (analyser.builder.setToken token)) := hkeeps.of_eq rfl rfl
  have hroom : 0 + analyser.session.frames.length ≤ bound := by
    rw [Nat.zero_add]
    exact hkeeps.depth_le
  obtain ⟨session, recorded, hconsume, inner, rest, path, hkeeps, htokens⟩ :=
    hholding.consume hguides hdepth hattempts rfl hroom htokens
  have hinput : analyser.session.input analyser.network analyser.limits.session token.category
      (analyser.builder.setToken token) = (true, session, recorded) :=
    Session.input_of_consumed hconsume
  refine ⟨session, recorded.commit, ?_, inner, rest, path, hkeeps.of_eq rfl rfl, htokens⟩
  rw [feed, hinput]

/-- The induction is on the tokens to come. -/
theorem feedAll_of_keepsOn (hguides : grammar.Guides start analyser.network)
    (hdepth : bound ≤ analyser.limits.session.maxCallDepth)
    (hattempts : bound ≤ analyser.limits.session.maxLocalAttempts)
    (hsteps : bound < analyser.limits.session.maxSettleSteps)
    (h : grammar.KeepsOn start analyser.network bound goal tokens analyser.configuration) :
    ∃ after, analyser.feedAll tokens = (true, after) ∧ after.tree.shape.bare = goal.bare := by
  induction tokens generalizing analyser with
  | nil => exact settle_of_keepsOn hguides.describes hguides.free hsteps h
  | cons token tokens ih =>
      obtain ⟨session, builder, hfeed, hkeeps⟩ :=
        feed_of_keepsOn hguides hdepth hattempts h
      rw [feedAll, hfeed]
      exact ih hguides hdepth hattempts hsteps hkeeps

/-- Over a predictive grammar without empty right-hand sides, the tokens of a derivation tree of the
start symbol are accepted, and the tree that is built is the derivation tree, provided that each limit is
greater than the depth to which nonterminals are nested in it. -/
theorem analyseTokens_complete {compiled : GrammarNetwork}
    (hcompile : grammar.compile = .ok compiled) (hfree : grammar.EpsilonFree)
    (hpredictive : grammar.Predictive compiled.start) {limits : AnalyserLimits}
    (hreachable : Reachable compiled.network limits analyser) {derivation : Shape}
    (hparses : grammar.Parses derivation)
    (hsymbol : derivation.symbol = .nonterminal compiled.start)
    (htokens : derivation.tokens = tokens) (hnesting : derivation.nesting ≤ bound)
    (hdepth : bound + 1 ≤ limits.session.maxCallDepth)
    (hattempts : bound + 1 ≤ limits.session.maxLocalAttempts)
    (hsteps : bound + 1 ≤ limits.session.maxSettleSteps) :
    ∃ after, analyser.analyseTokens tokens = (true, after) ∧
      after.tree.shape.bare = derivation.bare := by
  obtain ⟨-, hnetwork⟩ := Grammar.describes_of_compile hcompile
  obtain ⟨index, label, token, children⟩ := derivation
  have hlabel : label = compiled.start ∧ token = none := by
    cases token with
    | some token => cases hsymbol
    | none => exact ⟨Symbol.nonterminal.inj hsymbol, rfl⟩
  obtain ⟨rfl, rfl⟩ := hlabel
  rw [hreachable.analyseTokens_eq]
  refine feedAll_of_keepsOn ⟨hnetwork, hfree, hpredictive⟩ (Nat.le_of_succ_le hdepth)
    (Nat.le_of_succ_le hattempts) hsteps ?_
  refine ⟨_, children, [], keepsTo_start hnetwork hparses hnesting, ?_⟩
  rw [← htokens, Shape.tokens_node, toCome, List.flatMap_nil, List.append_nil]

/-- Lists in brackets. Behind an item a list may end or go on. -/
def lists : Grammar where
  start := some "S"
  nonterminals := ["S", "L", "I"]
  terminals := ["(", ")", ",", "w"]
  rules := [⟨"S", [.terminal "(", .nonterminal "L", .terminal ")"]⟩, ⟨"L", [.nonterminal "I"]⟩,
    ⟨"L", [.nonterminal "I", .terminal ",", .nonterminal "L"]⟩, ⟨"I", [.terminal "w"]⟩,
    ⟨"I", [.nonterminal "S"]⟩]

def listsTable : LookaheadTable where
  first name := if name = "S" then ["("] else ["(", "w"]
  follow name := if name = "L" then [")"] else [")", ","]

/-- The tree of a word or of a sign. -/
def leafOf (lexeme : String) : Shape := .node 0 lexeme (some ⟨lexeme, lexeme, []⟩) []

/-- An item over a word. -/
def wordItem : Shape := .node 0 "I" none [leafOf "w"]

/-- A list in brackets. -/
def inBrackets (list : Shape) : Shape := .node 0 "S" none [leafOf "(", list, leafOf ")"]

/-- The list of a word and a list that has a word as its only item. -/
def nestedList : Shape :=
  inBrackets (.node 0 "L" none [wordItem, leafOf ",", .node 0 "L" none
    [.node 0 "I" none [inBrackets (.node 0 "L" none [wordItem])]]])

/-- A list inside a list: nonterminals are nested six deep. -/
theorem lists_complete :
    ∃ compiled after, lists.compile = .ok compiled ∧ lists.EpsilonFree ∧
      lists.Predictive compiled.start ∧ lists.Parses nestedList ∧
      nestedList.symbol = .nonterminal compiled.start ∧ nestedList.nesting = 6 ∧
      (Analyser.start compiled.network { session := ⟨7, 7, 7⟩ }).analyseTokens nestedList.tokens =
        (true, after) ∧ after.tree.shape.bare = nestedList.bare := by
  have hfree : lists.EpsilonFree := by decide
  have hdecides : listsTable.Decides lists := by decide
  have hparses : lists.Parses nestedList := by decide
  have hnesting : nestedList.nesting = 6 := by decide
  have hstart : lists.check = .ok "S" := by cbv
  have hcompiles : lists.compile.isOk = true := by cbv
  cases hcompile : lists.compile with
  | error => rw [hcompile] at hcompiles; cases hcompiles
  | ok compiled =>
      have hsame : compiled.start = "S" := by
        have hcheck := (describes_of_compile hcompile).1
        rw [hstart] at hcheck
        exact (Except.ok.inj hcheck).symm
      have hpredictive := hdecides.predictive hfree compiled.start
      have hsymbol : nestedList.symbol = .nonterminal compiled.start := by
        rw [hsame]
        rfl
      have hreachable : Reachable compiled.network { session := ⟨7, 7, 7⟩ } _ := .start
      obtain ⟨after, haccepted, htree⟩ := analyseTokens_complete hcompile hfree hpredictive
        hreachable hparses hsymbol rfl (Nat.le_of_eq hnesting) (Nat.le_refl 7) (Nat.le_refl 7)
        (Nat.le_refl 7)
      exact ⟨compiled, after, rfl, hfree, hpredictive, hparses, hsymbol, hnesting, haccepted, htree⟩

end Analyser

end TransitionNetwork
