import TransitionNetwork.Proofs.LineNotation

/-! The two notations of grammars against each other. The lines of a text and the rules of a definition declare
the same symbols in the same order, whatever words the rules are made of. They also make the same rules of
them, but for a word that reads as the empty production and is a generator too: a line calls the generator
there, and a definition takes the empty production. -/

namespace TransitionNetwork

/-! ### Declarations and the start symbol -/

namespace Grammar

/-- The grammar with another start symbol, on which no declaration depends. -/
def startingWith (start : Option String) (grammar : Grammar) : Grammar := { grammar with start }

variable {start : Option String}

theorem startingWith_addNonterminal (grammar : Grammar) (name : String) :
    (grammar.startingWith start).addNonterminal name =
      (grammar.addNonterminal name).startingWith start := by
  rw [addNonterminal, addNonterminal, apply_ite (startingWith start)]
  rfl

theorem startingWith_declare (rules : List RuleDefinition) (grammar : Grammar) :
    rules.foldl (fun grammar rule => grammar.addNonterminal rule.lhs) (grammar.startingWith start) =
      (rules.foldl (fun grammar rule => grammar.addNonterminal rule.lhs) grammar).startingWith start :=
  List.foldl_hom _ fun grammar rule => startingWith_addNonterminal grammar rule.lhs

theorem startingWith_addTerminals (symbols : List Symbol) (grammar : Grammar) :
    (grammar.startingWith start).addTerminals symbols =
      (grammar.addTerminals symbols).startingWith start := by
  refine List.foldl_hom _ fun grammar symbol => ?_
  cases symbol with
  | terminal name =>
      dsimp only
      rw [addTerminal, addTerminal, apply_ite (startingWith start)]
      rfl
  | nonterminal => rfl
  | epsilon => rfl

theorem startingWith_addProduction (grammar : Grammar) (rule : Rule) :
    (grammar.startingWith start).addProduction rule =
      (grammar.addProduction rule).startingWith start := by
  rw [addProduction, startingWith_addTerminals, addProduction, addRule, addRule,
    apply_ite (startingWith start)]
  rfl

end Grammar

/-! ### The grammar of a definition -/

namespace Definition

variable {grammar : Grammar} {rules : List RuleDefinition} {word : String}

/-- A word that reads as the empty production calls no generator. -/
theorem isEpsilonWord_eq_false_of_mem_classifyRhs {rhs : List String}
    (h : .nonterminal word ∈ classifyRhs grammar rhs) : Grammar.isEpsilonWord word = false := by
  unfold classifyRhs at h
  split at h
  · cases List.mem_singleton.mp h
  · obtain ⟨read, -, hread⟩ := List.mem_map.mp h
    unfold classifyWord at hread
    split at hread
    · cases hread
    · next hsome =>
      split at hread
      · cases hread
        exact Bool.eq_false_iff.mpr hsome
      · cases hread

/-- A word is read in the same way in both notations, unless it reads as the empty production and is a
generator too. -/
theorem classifyWord_cases (grammar : Grammar) (word : String) :
    classifyWord grammar word = grammar.classifyWord word ∨
      (Grammar.isEpsilonWord word = true ∧ word ∈ grammar.nonterminals ∧
        classifyWord grammar word = .epsilon ∧ grammar.classifyWord word = .nonterminal word) := by
  by_cases hempty : Grammar.isEpsilonWord word = true
  · by_cases hdeclared : grammar.hasNonterminal word = true
    · refine .inr ⟨hempty, Grammar.hasNonterminal_iff.mp hdeclared, ?_, ?_⟩
      · rw [classifyWord, if_pos hempty]
      · rw [Grammar.classifyWord, if_pos hdeclared]
    · left
      rw [classifyWord, if_pos hempty, Grammar.classifyWord, if_neg hdeclared, if_pos hempty]
  · left
    rw [classifyWord, if_neg hempty, Grammar.classifyWord, if_neg hempty]

theorem production_eq_written {rule : RuleDefinition} (hrhs : rule.rhs ≠ [])
    (hfree : ∀ word ∈ rule.rhs, Grammar.isEpsilonWord word = true → word ∉ grammar.nonterminals) :
    production grammar rule = grammar.written rule := by
  rw [production, classifyRhs, if_neg hrhs, Grammar.written]
  refine congrArg _ (List.map_congr_left fun word hword => ?_)
  refine (classifyWord_cases grammar word).resolve_right ?_
  rintro ⟨hempty, hdeclared, -⟩
  exact hfree word hword hempty hdeclared

/-- Without a start symbol and a list of terminals, a definition declares the generators, and the first of them
is the start symbol. -/
theorem ofGenerators_eq_declarations (rules : List RuleDefinition) (remarks : Dictionary Json) :
    Grammar.ofGenerators (rules.map (·.lhs)) =
      (declarations { rules, remarks }).startingWith (startSymbol { rules, remarks }) := by
  rw [Grammar.ofGenerators, List.foldl_map, List.head?_map]
  exact Grammar.startingWith_declare rules {}

theorem error?_of_writable (hsome : rules ≠ []) (hwritable : ∀ rule ∈ rules, rule.Writable)
    (remarks : Dictionary Json) : error? { rules, remarks } = none := by
  have hlhs : ∀ rule ∈ rules, Text.trim rule.lhs ≠ "" := by
    intro rule hrule htrim
    have hlhs := (hwritable rule hrule).lhs
    rw [Text.trim_of_isWord (Grammar.isWord_isBlank hlhs)] at htrim
    rw [htrim] at hlhs
    exact hlhs.1 rfl
  rw [error?, if_neg hsome, if_neg (by simpa using hlhs), if_pos rfl]

theorem toGrammar_of_writable (hsome : rules ≠ []) (hwritable : ∀ rule ∈ rules, rule.Writable)
    (remarks : Dictionary Json) :
    let base := Grammar.ofGenerators (rules.map (·.lhs))
    toGrammar { rules, remarks } =
      .ok ((rules.map (production base)).foldl Grammar.addProduction base) := by
  dsimp only
  rw [toGrammar, error?_of_writable hsome hwritable, foldl_addRule, ofGenerators_eq_declarations rules remarks]
  refine congrArg Except.ok (Eq.symm ?_)
  exact List.foldl_hom (Grammar.startingWith _) Grammar.startingWith_addProduction

end Definition

/-! ### Agreement -/

namespace Grammar

/-- Two grammars that differ at most in their rules. -/
structure SameSymbols (left right : Grammar) : Prop where
  start : left.start = right.start
  nonterminals : left.nonterminals = right.nonterminals
  terminals : left.terminals = right.terminals

namespace SameSymbols

variable {left right : Grammar}

theorem addTerminal (h : SameSymbols left right) (name : String) :
    SameSymbols (left.addTerminal name) (right.addTerminal name) := by
  have hsame : left.hasTerminal name = right.hasTerminal name := by rw [hasTerminal, h.terminals, hasTerminal]
  unfold Grammar.addTerminal
  rw [hsame]
  split
  · exact h
  · exact ⟨h.start, h.nonterminals, by rw [h.terminals]⟩

theorem addRule (h : SameSymbols left right) (rule other : Rule) :
    SameSymbols (left.addRule rule) (right.addRule other) :=
  ⟨by simp [h.start], by simp [h.nonterminals], by simp [h.terminals]⟩

/-- Both notations find the same terminals on a right-hand side. -/
theorem addTerminals (h : SameSymbols left right) (base : Grammar) (rhs : List String) :
    SameSymbols (left.addTerminals (rhs.map base.classifyWord))
      (right.addTerminals (rhs.map (Definition.classifyWord base))) := by
  rw [Grammar.addTerminals, List.foldl_map, Grammar.addTerminals, List.foldl_map]
  refine List.foldl_rel h fun word _ left right hsame => ?_
  rcases Definition.classifyWord_cases base word with hword | ⟨-, -, hdefinition, hline⟩
  · rw [hword]
    cases base.classifyWord word with
    | terminal name => exact hsame.addTerminal name
    | nonterminal => exact hsame
    | epsilon => exact hsame
  · rw [hdefinition, hline]
    exact hsame

theorem foldl_addProduction (base : Grammar) {rules : List RuleDefinition}
    (hrhs : ∀ rule ∈ rules, rule.rhs ≠ []) :
    SameSymbols ((rules.map base.written).foldl addProduction base)
      ((rules.map (Definition.production base)).foldl addProduction base) := by
  rw [List.foldl_map, List.foldl_map]
  refine List.foldl_rel ⟨rfl, rfl, rfl⟩ fun rule hrule left right hsame => ?_
  rw [Definition.production, Definition.classifyRhs, if_neg (hrhs rule hrule)]
  exact (hsame.addTerminals base rule.rhs).addRule _ _

end SameSymbols

/-- Rules that can be written line by line describe a grammar in both notations. The two have the same
symbols, and they are equal exactly if no word on a right-hand side reads as the empty production and is a
generator too. -/
theorem notations_agree_iff {rules : List RuleDefinition} (hsome : rules ≠ [])
    (hwritable : ∀ rule ∈ rules, rule.Writable) (remarks : Dictionary Json) :
    ∃ text definition, ofText (lineText rules) = .ok text ∧
      Definition.toGrammar { rules, remarks } = .ok definition ∧ SameSymbols text definition ∧
      (text = definition ↔ ∀ rule ∈ rules, ∀ word ∈ rule.rhs, isEpsilonWord word = true →
        ∀ other ∈ rules, other.lhs ≠ word) := by
  have hrhs : ∀ rule ∈ rules, rule.rhs ≠ [] := fun rule hrule => (hwritable rule hrule).rhs_ne_nil
  have htext : ofText (lineText rules) = .ok (ofRules rules) := by
    rw [ofText_eq_ok_iff, lineRules_lineText hwritable]
    exact ⟨hrhs, rfl⟩
  have hgenerator : ∀ word, word ∈ (ofGenerators (rules.map (·.lhs))).nonterminals ↔
      ∃ other ∈ rules, other.lhs = word := by
    simp [mem_nonterminals_ofGenerators]
  refine ⟨_, _, htext, Definition.toGrammar_of_writable hsome hwritable remarks,
    SameSymbols.foldl_addProduction _ hrhs, ?_⟩
  set base := ofGenerators (rules.map (·.lhs)) with hbase
  constructor
  · intro hequal rule hrule word hword hempty other hother hlhs
    -- The line calls the generator, which no rule of the definition does.
    have hcall : base.classifyWord word = .nonterminal word := by
      rw [classifyWord, if_pos (hasNonterminal_iff.mpr ((hgenerator word).mpr ⟨other, hother, hlhs⟩))]
    have hmem : base.written rule ∈ (ofRules rules).rules :=
      ((fields_ofRules rules).2 _).mpr ⟨rule, hrule, rfl⟩
    rw [hequal, (foldl_addProduction _ _).2.2.1, hbase, rules_ofGenerators, ← hbase] at hmem
    obtain ⟨source, -, hsource⟩ :
        ∃ source ∈ rules, Definition.production base source = base.written rule := by
      simpa using hmem
    have helement : .nonterminal word ∈ (base.written rule).elements :=
      List.mem_map.mpr ⟨word, hword, hcall⟩
    rw [← hsource] at helement
    rw [Definition.isEpsilonWord_eq_false_of_mem_classifyRhs helement] at hempty
    cases hempty
  · intro hfree
    have hsame : rules.map base.written = rules.map (Definition.production base) := by
      refine List.map_congr_left fun rule hrule => (Definition.production_eq_written (hrhs rule hrule) ?_).symm
      intro word hword hempty hdeclared
      obtain ⟨other, hother, hlhs⟩ := (hgenerator word).mp hdeclared
      exact hfree rule hrule word hword hempty other hother hlhs
    rw [ofRules, ← hbase, hsame]

/-- Every kind of word, and a generator that reads as the empty production but is not called. -/
def mixed : List RuleDefinition := [⟨"S", ["N", "EPSILON"]⟩, ⟨"N", ["n"]⟩, ⟨"Epsilon", ["N"]⟩]

theorem mixed_notations_agree :
    ∃ grammar, ofText "S -> N + EPSILON\nN -> n\nEpsilon -> N" = .ok grammar ∧
      Definition.toGrammar { rules := mixed } = .ok grammar := by
  have hlines : lineText mixed = "S -> N + EPSILON\nN -> n\nEpsilon -> N" := by decide +kernel
  obtain ⟨text, definition, htext, hdefinition, -, hagree⟩ :=
    notations_agree_iff (by decide : mixed ≠ []) (by decide +kernel) []
  rw [hlines] at htext
  exact ⟨text, htext, hagree.mpr (by decide +kernel) ▸ hdefinition⟩

/-- A generator that reads as the empty production and is called. -/
def called : List RuleDefinition := [⟨"S", ["epsilon"]⟩, ⟨"epsilon", ["a"]⟩]

theorem not_notations_agree :
    ¬ ∀ rules : List RuleDefinition, rules ≠ [] → (∀ rule ∈ rules, rule.Writable) →
      ∃ grammar, ofText (lineText rules) = .ok grammar ∧
        Definition.toGrammar { rules } = .ok grammar := by
  intro hagree
  obtain ⟨grammar, htext, hdefinition⟩ := hagree called (by decide) (by decide +kernel)
  have hline : ofText (lineText called) = .ok ⟨some "S", ["S", "epsilon"], ["a"],
      [⟨"S", [.nonterminal "epsilon"]⟩, ⟨"epsilon", [.terminal "a"]⟩]⟩ := by decide +kernel
  have hrecord : Definition.toGrammar { rules := called } = .ok ⟨some "S", ["S", "epsilon"], ["a"],
      [⟨"S", [.epsilon]⟩, ⟨"epsilon", [.terminal "a"]⟩]⟩ := by decide +kernel
  rw [hline] at htext
  rw [hrecord] at hdefinition
  cases htext
  cases hdefinition

end Grammar

end TransitionNetwork
