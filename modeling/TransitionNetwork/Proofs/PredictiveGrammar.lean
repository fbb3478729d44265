import TransitionNetwork.Proofs.CallEligibility
import TransitionNetwork.Proofs.TreeReach
import TransitionNetwork.Proofs.TriePaths

/-! Grammars that one terminal of lookahead decides. A terminal is a first of a symbol if a sentential
form of the symbol begins with it, and it follows a nonterminal if it stands behind the nonterminal in a
sentential form of the start symbol. Without empty right-hand sides, the calls that the lookahead of a
session lets pass are those of nonterminals that have the terminal at hand as a first. -/

namespace TransitionNetwork

namespace Grammar

variable {grammar : Grammar} {start nonterminal terminal : String}

/-- No right-hand side is empty or has an epsilon element. -/
def EpsilonFree (grammar : Grammar) : Prop :=
  ∀ rule ∈ grammar.rules, rule.elements ≠ [] ∧ .epsilon ∉ rule.elements

instance (grammar : Grammar) : Decidable grammar.EpsilonFree :=
  inferInstanceAs (Decidable (∀ rule ∈ grammar.rules, _ ∧ _))

theorem EpsilonFree.body_ne_nil (h : grammar.EpsilonFree) {rule : Rule}
    (hrule : rule ∈ grammar.rules) : rule.body ≠ [] := by
  obtain ⟨hne, hepsilon⟩ := h rule hrule
  have hbody : rule.body = rule.elements := by
    apply List.filter_eq_self.mpr
    intro symbol hsymbol
    simpa using fun heq : symbol = .epsilon => hepsilon (heq ▸ hsymbol)
  rw [hbody]
  exact hne

/-- A terminal that a sentential form of a symbol begins with. -/
def First (grammar : Grammar) (symbol : Symbol) (terminal : String) : Prop :=
  ∃ rest, grammar.Derives [symbol] (.terminal terminal :: rest)

/-- A terminal that stands behind a nonterminal in a sentential form of the start symbol. -/
def Follow (grammar : Grammar) (start nonterminal terminal : String) : Prop :=
  ∃ left right, grammar.Derives [.nonterminal start]
    (left ++ .nonterminal nonterminal :: .terminal terminal :: right)

/-- A symbol that comes next in a rule of a nonterminal behind some symbols. -/
def Continues (grammar : Grammar) (nonterminal : String) (begun : List Symbol) (symbol : Symbol) :
    Prop :=
  ∃ rule ∈ grammar.rulesFor nonterminal, begun ++ [symbol] <+: rule.body

/-- Wherever the rules of a nonterminal part, or one of them ends, the next terminal tells how to go
on. -/
structure Predictive (grammar : Grammar) (start : String) : Prop where
  first_apart : ∀ nonterminal begun left right, grammar.Continues nonterminal begun left →
    grammar.Continues nonterminal begun right → left ≠ right →
    ∀ terminal, grammar.First left terminal → ¬ grammar.First right terminal
  follow_apart : ∀ rule ∈ grammar.rules, ∀ symbol,
    grammar.Continues rule.generator rule.body symbol →
    ∀ terminal, grammar.First symbol terminal → ¬ grammar.Follow start rule.generator terminal

theorem first_terminal (grammar : Grammar) (terminal : String) :
    grammar.First (.terminal terminal) terminal :=
  ⟨[], .refl⟩

theorem Continues.derives {symbol : Symbol} (h : grammar.Continues nonterminal [] symbol) :
    ∃ rest, grammar.Derives [.nonterminal nonterminal] (symbol :: rest) := by
  obtain ⟨rule, hrule, rest, hbody⟩ := h
  obtain ⟨hmem, rfl⟩ := mem_rulesFor.mp hrule
  refine ⟨rest, ?_⟩
  have hderives := derives_body hmem
  rw [← hbody] at hderives
  exact hderives

/-! ### Moves of a machine and the symbols that come next -/

section

variable {begun : List Symbol} {state : Nat}

theorem continues_of_step?
    (hlocate : Trie.locate? (grammar.machine nonterminal) begun = some state) {symbol : Symbol}
    {target : Nat} (hstep : Trie.step? (grammar.machine nonterminal) state symbol = some target) :
    grammar.Continues nonterminal begun symbol := by
  have hnext : Trie.locate? (grammar.machine nonterminal) (begun ++ [symbol]) = some target := by
    rw [Trie.locate?_concat, hlocate]
    exact hstep
  exact begins_of_locate? (by simp) hnext

theorem continues_of_transition?
    (hlocate : Trie.locate? (grammar.machine nonterminal) begun = some state)
    {transition : Transition}
    (htransition : ((grammar.machine nonterminal).state state).transition? terminal =
      some transition) :
    grammar.Continues nonterminal begun (.terminal terminal) := by
  apply continues_of_step? hlocate
  rw [Trie.step?, htransition, Option.map_some]

theorem continues_of_call
    (hlocate : Trie.locate? (grammar.machine nonterminal) begun = some state) {call : Call}
    (hcall : call ∈ ((grammar.machine nonterminal).state state).calls) :
    grammar.Continues nonterminal begun (.nonterminal call.callee) := by
  have hsome : (((grammar.machine nonterminal).state state).call? call.callee).isSome := by
    rw [State.call?, List.find?_isSome]
    exact ⟨call, hcall, decide_eq_true rfl⟩
  obtain ⟨found, hfound⟩ := Option.isSome_iff_exists.mp hsome
  apply continues_of_step? hlocate
  rw [Trie.step?, hfound, Option.map_some]

/-- A machine can go on by every symbol that comes next in one of its rules. -/
theorem Continues.step? {symbol : Symbol} (h : grammar.Continues nonterminal begun symbol)
    (hlocate : Trie.locate? (grammar.machine nonterminal) begun = some state) :
    ∃ target, Trie.step? (grammar.machine nonterminal) state symbol = some target ∧
      Trie.locate? (grammar.machine nonterminal) (begun ++ [symbol]) = some target := by
  obtain ⟨rule, hrule, hbegins⟩ := h
  obtain ⟨last, hlast, -⟩ := (grammar.follow_machine nonterminal).2 rule hrule
  have hsome := Trie.locate?_of_isPrefix hbegins (Option.isSome_iff_exists.mpr ⟨last, hlast⟩)
  obtain ⟨target, htarget⟩ := Option.isSome_iff_exists.mp hsome
  refine ⟨target, ?_, htarget⟩
  rw [Trie.locate?_concat, hlocate] at htarget
  exact htarget

/-- The end of a rule has an epsilon move to the final state. -/
theorem EpsilonFree.epsilon_of_body (hfree : grammar.EpsilonFree) {rule : Rule}
    (hrule : rule ∈ grammar.rulesFor nonterminal)
    (hlocate : Trie.locate? (grammar.machine nonterminal) rule.body = some state) :
    ∃ epsilon, ((grammar.machine nonterminal).state state).epsilon = some epsilon ∧
      epsilon.target = Trie.final ∧ epsilon.action = none := by
  obtain ⟨last, hlast, hepsilon⟩ := (grammar.follow_machine nonterminal).2 rule hrule
  rw [hlocate] at hlast
  cases hlast
  obtain ⟨hinside, hword⟩ := word_of_locate? hlocate
  have hroot : state ≠ Trie.root := by
    rintro rfl
    rw [(grammar.spells_word nonterminal).word_root] at hword
    exact hfree.body_ne_nil (mem_rulesFor.mp hrule).1 hword.symm
  obtain ⟨epsilon, hsome⟩ := Option.isSome_iff_exists.mp (hepsilon hroot)
  have hreads := (grammar.spells_word nonterminal).reads state hinside.2.1 hinside.2.2
  obtain ⟨htarget, haction, -⟩ := hreads.epsilon epsilon hsome
  exact ⟨epsilon, hsome, htarget, haction⟩

/-- A machine that has not begun cannot end. -/
theorem EpsilonFree.epsilon_root (hfree : grammar.EpsilonFree) (nonterminal : String) :
    ((grammar.machine nonterminal).state Trie.root).epsilon = none := by
  have hspells := grammar.spells_word nonterminal
  cases hepsilon : ((grammar.machine nonterminal).state Trie.root).epsilon with
  | none => rfl
  | some epsilon =>
      obtain ⟨-, -, rule, hrule, hbody⟩ :=
        (hspells.reads Trie.root (by decide) (by decide)).epsilon epsilon hepsilon
      have hrule := (mem_rulesFor.mp hrule).1
      rw [hspells.word_root] at hbody
      rcases hbody with hbody | ⟨-, hmem⟩
      · exact absurd hbody (hfree.body_ne_nil hrule)
      · exact absurd hmem (hfree rule hrule).2

end

/-! ### Calls that the lookahead lets pass -/

variable {network : Network}

/-- The initial place of a nonterminal is the root of its machine, or has no moves if there is none. -/
theorem Describes.stateAt_root (hnetwork : grammar.Describes start network) (nonterminal : String) :
    network.stateAt (nonterminal, 0) = { name := "" } ∨
      network.stateAt (nonterminal, 0) = (grammar.machine nonterminal).state Trie.root := by
  rw [Network.stateAt]
  cases hmachine : network.machine? nonterminal with
  | none => exact .inl rfl
  | some machine =>
      rw [hnetwork.callee_eq hmachine]
      exact .inr rfl

/-- Before it has consumed a symbol, a machine comes only to beginnings of machines that it may call
first. -/
theorem Describes.derives_of_reaches (hnetwork : grammar.Describes start network)
    (hfree : grammar.EpsilonFree) {place : Network.Place}
    (h : Reaches network.successors (nonterminal, 0) place) :
    ∃ name rest, place = (name, 0) ∧
      grammar.Derives [.nonterminal nonterminal] (.nonterminal name :: rest) := by
  generalize hfrom : (nonterminal, 0) = initial at h
  induction h using Relation.ReflTransGen.head_induction_on generalizing nonterminal with
  | refl => exact ⟨nonterminal, [], hfrom.symm, .refl⟩
  | head hedge _ ih =>
      subst hfrom
      rw [Network.successors] at hedge
      rcases hnetwork.stateAt_root nonterminal with hblank | hroot
      · rw [hblank] at hedge
        cases hedge
      · rw [hroot, hfree.epsilon_root, Option.toList_none, List.map_nil, List.append_nil] at hedge
        obtain ⟨call, hcall, hsuccessor⟩ := List.mem_map.mp hedge
        obtain ⟨rest, hcalled⟩ := (continues_of_call (Trie.locate?_nil _) hcall).derives
        obtain ⟨name, rest', hplace, hderives⟩ := ih hsuccessor
        exact ⟨name, rest' ++ rest, hplace, hcalled.trans (hderives.append_right rest)⟩

/-- A place that welcomes a symbol at the beginning of a machine takes it. -/
theorem Describes.transition_of_welcomes (hnetwork : grammar.Describes start network)
    {symbol : Option String} (h : network.welcomes symbol (nonterminal, 0) = true) :
    ∃ terminal ∈ symbol, grammar.Continues nonterminal [] (.terminal terminal) := by
  have hspells := grammar.spells_word nonterminal
  rw [Network.welcomes] at h
  rcases hnetwork.stateAt_root nonterminal with hblank | hroot
  · rw [hblank] at h
    cases symbol <;> cases h
  · rw [hroot, State.isAccept, (hspells.reads Trie.root (by decide) (by decide)).kind_eq] at h
    cases symbol with
    | none => cases h
    | some terminal =>
        refine ⟨terminal, rfl, ?_⟩
        have hsome : (((grammar.machine nonterminal).state Trie.root).transition? terminal).isSome :=
          by simpa [State.hasTransition] using h
        obtain ⟨transition, htransition⟩ := Option.isSome_iff_exists.mp hsome
        exact continues_of_transition? (Trie.locate?_nil _) htransition

/-- A machine that can start with a terminal has it as a first. -/
theorem Describes.first_of_startable (hnetwork : grammar.Describes start network)
    (hfree : grammar.EpsilonFree) (h : network.Startable (some terminal) nonterminal) :
    grammar.First (.nonterminal nonterminal) terminal := by
  obtain ⟨place, hreaches, hwelcome⟩ := h
  obtain ⟨name, rest, rfl, hderives⟩ := hnetwork.derives_of_reaches hfree hreaches
  obtain ⟨_, ⟨⟩, hcontinues⟩ := hnetwork.transition_of_welcomes hwelcome
  obtain ⟨rest', hfirst⟩ := hcontinues.derives
  exact ⟨rest' ++ rest, hderives.trans (hfirst.append_right rest)⟩

/-- Without a symbol no machine can start. -/
theorem Describes.not_startable_none (hnetwork : grammar.Describes start network)
    (hfree : grammar.EpsilonFree) (nonterminal : String) :
    ¬ network.Startable none nonterminal := by
  rintro ⟨place, hreaches, hwelcome⟩
  obtain ⟨name, rest, rfl, -⟩ := hnetwork.derives_of_reaches hfree hreaches
  obtain ⟨_, ⟨⟩, -⟩ := hnetwork.transition_of_welcomes hwelcome

/-- The machines that a machine of a network calls are those of their nonterminals. -/
theorem Describes.machine?_callee (hnetwork : grammar.Describes start network)
    (hmachine : network.machine? nonterminal = some (grammar.machine nonterminal)) {state : Nat}
    {call : Call} (hcall : call ∈ ((grammar.machine nonterminal).state state).calls) :
    network.machine? call.callee = some (grammar.machine call.callee) := by
  have hmem := (Network.mem_of_machine? hmachine).1
  have hstate := Automaton.state_mem
    (Automaton.lt_size_of_target (State.target_mem_of_call hcall))
  obtain ⟨callee, hcallee, hname⟩ := List.mem_map.mp (network.callee_mem _ hmem _ hstate call hcall)
  cases hfound : network.machine? call.callee with
  | none =>
      have hnone := List.find?_eq_none.mp hfound callee hcallee
      exact absurd (decide_eq_true hname) hnone
  | some machine => rw [hnetwork.callee_eq hfound]

/-! ### Derivation trees -/

/-- A derivation tree: a token, or a node over the body of a rule. -/
inductive Parses (grammar : Grammar) : Shape → Prop
  | leaf (index : Nat) (token : Token) : Parses grammar (.node index token.category (some token) [])
  | node (index : Nat) {rule : Rule} (hrule : rule ∈ grammar.rules) {children : List Shape}
      (hbody : children.map Shape.symbol = rule.body)
      (h : ∀ child ∈ children, Parses grammar child) :
      Parses grammar (.node index rule.generator none children)

mutual

/-- Whether a tree is a derivation tree. -/
def isParse (grammar : Grammar) : Shape → Bool
  | .node _ label (some token) children => label = token.category && children.isEmpty
  | .node _ label none children =>
    grammar.rules.any (fun rule => rule.generator = label && children.map Shape.symbol = rule.body) &&
      areParses grammar children

def areParses (grammar : Grammar) : List Shape → Bool
  | [] => true
  | shape :: shapes => grammar.isParse shape && areParses grammar shapes

end

theorem areParses_iff {shapes : List Shape} :
    grammar.areParses shapes = true ↔ ∀ shape ∈ shapes, grammar.isParse shape = true := by
  induction shapes with
  | nil => simp [areParses]
  | cons shape shapes ih => simp [areParses, ih]

theorem isParse_iff (shape : Shape) : grammar.isParse shape = true ↔ grammar.Parses shape := by
  constructor
  · intro h
    induction shape using Shape.induction with
    | node index label token children ih =>
        cases token with
        | some token =>
            simp only [isParse, Bool.and_eq_true, decide_eq_true_eq, List.isEmpty_iff] at h
            obtain ⟨rfl, rfl⟩ := h
            exact .leaf index token
        | none =>
            simp only [isParse, Bool.and_eq_true, List.any_eq_true, decide_eq_true_eq,
              areParses_iff] at h
            obtain ⟨⟨rule, hrule, rfl, hbody⟩, hchildren⟩ := h
            exact .node index hrule hbody fun child hchild => ih child hchild (hchildren child hchild)
  · intro h
    induction h with
    | leaf index token => simp [isParse]
    | @node index rule hrule children hbody _ ih =>
        simp only [isParse, Bool.and_eq_true, List.any_eq_true, decide_eq_true_eq, areParses_iff]
        exact ⟨⟨rule, hrule, rfl, hbody⟩, ih⟩

instance : DecidablePred grammar.Parses := fun shape => decidable_of_iff _ (isParse_iff shape)

theorem condenses_self (grammar : Grammar) (symbols : List Symbol) :
    grammar.Condenses symbols symbols := by
  induction symbols with
  | nil => exact .nil
  | cons symbol symbols ih => exact .keep symbol ih

variable {shape : Shape}

/-- The children of a node in the order of the body of its rule, the first of them apart. -/
theorem EpsilonFree.children_eq_cons (hfree : grammar.EpsilonFree) {rule : Rule}
    (hrule : rule ∈ grammar.rules) {children : List Shape}
    (hbody : children.map Shape.symbol = rule.body) : ∃ child rest, children = child :: rest := by
  apply List.exists_cons_of_ne_nil
  rintro rfl
  exact hfree.body_ne_nil hrule hbody.symm

theorem Parses.derived (hfree : grammar.EpsilonFree) (h : grammar.Parses shape) :
    grammar.Derived shape := by
  induction h with
  | leaf index token => exact .leaf index token
  | node index hrule hbody _ ih =>
      obtain ⟨child, rest, rfl⟩ := hfree.children_eq_cons hrule hbody
      refine .node index hrule (List.cons_ne_nil child rest) ?_ ih
      rw [hbody]
      exact condenses_self grammar _

theorem Parses.tokens_ne_nil (hfree : grammar.EpsilonFree) (h : grammar.Parses shape) :
    shape.tokens ≠ [] := by
  induction h with
  | leaf index token => simp
  | node index hrule hbody _ ih =>
      obtain ⟨child, rest, rfl⟩ := hfree.children_eq_cons hrule hbody
      rw [Shape.tokens_node, List.flatMap_cons]
      exact List.append_ne_nil_of_left_ne_nil (ih child List.mem_cons_self) _

/-- The trees of some symbols derive their tokens from these. -/
theorem derives_of_parses (hfree : grammar.EpsilonFree) {shapes : List Shape}
    (h : ∀ shape ∈ shapes, grammar.Parses shape) :
    grammar.Derives (shapes.map Shape.symbol) (categories (shapes.flatMap Shape.tokens)) :=
  derives_flatMap fun shape hshape => ((h shape hshape).derived hfree).derives

/-- The machine of a derivation tree can start with the first token of the tree. -/
theorem Parses.startable (hnetwork : grammar.Describes start network)
    (hfree : grammar.EpsilonFree) (h : grammar.Parses shape)
    (hmachine : network.machine? shape.label = some (grammar.machine shape.label))
    (hsymbol : shape.token = none) {token : Token} {tokens : List Token}
    (htokens : shape.tokens = token :: tokens) :
    network.Startable (some token.category) shape.label := by
  induction h generalizing tokens with
  | leaf => cases hsymbol
  | @node index rule hrule children hbody hparses ih =>
      obtain ⟨child, rest, rfl⟩ := hfree.children_eq_cons hrule hbody
      have hcontinues : grammar.Continues rule.generator [] child.symbol :=
        ⟨rule, mem_rulesFor.mpr ⟨hrule, rfl⟩, rest.map Shape.symbol, hbody⟩
      obtain ⟨target, hstep, -⟩ := hcontinues.step? (Trie.locate?_nil _)
      have hstate : network.stateAt (rule.generator, 0) =
          (grammar.machine rule.generator).state Trie.root := by
        change network.machine? rule.generator = _ at hmachine
        rw [Network.stateAt, hmachine]
        rfl
      rw [Shape.tokens_node, List.flatMap_cons] at htokens
      have hchild := hparses child List.mem_cons_self
      have hfirst := hchild.tokens_ne_nil hfree
      obtain ⟨first, others, hothers⟩ := List.exists_cons_of_ne_nil hfirst
      rw [hothers, List.cons_append] at htokens
      obtain ⟨rfl, -⟩ := List.cons.inj htokens
      cases htoken : child.token with
      | some leaf =>
          cases hchild with
          | node => cases htoken
          | leaf index other =>
              rw [Shape.tokens_leaf] at hothers
              cases hothers
              obtain ⟨transition, htransition, -⟩ := Option.map_eq_some_iff.mp hstep
              rw [Shape.label] at htransition
              refine ⟨(rule.generator, 0), .refl, ?_⟩
              simp [Network.welcomes, hstate, State.hasTransition, htransition]
      | none =>
          rw [Shape.symbol, htoken] at hstep
          obtain ⟨call, hcall, -⟩ := Option.map_eq_some_iff.mp hstep
          have hmem := List.mem_of_find?_eq_some hcall
          have hcallee : call.callee = child.label := by simpa using List.find?_some hcall
          have hknown := hnetwork.machine?_callee hmachine hmem
          rw [hcallee] at hknown
          obtain ⟨place, hreaches, hwelcome⟩ := ih child List.mem_cons_self hknown htoken hothers
          refine ⟨place, .head ?_ hreaches, hwelcome⟩
          change _ ∈ network.successors (rule.generator, 0)
          rw [Network.successors, hstate, ← hcallee]
          exact List.mem_append_left _ (List.mem_map_of_mem hmem)

end Grammar

end TransitionNetwork
