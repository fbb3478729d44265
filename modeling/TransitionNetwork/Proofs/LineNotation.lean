import TransitionNetwork.Proofs.CutText
import TransitionNetwork.Proofs.LoadedGrammars

/-! Reading the line notation back. A text says no more than the words on its lines (`lineRules`), and rules
that are written line by line are read as they were, unless a line would be taken for a comment. The grammar
of such rules keeps the rules in order, each once, and everything else about it follows from these: the
generators come in the order of their first rules, and so do the terminals. Read again, the rules of a grammar
therefore give the grammar, if the word for the empty production is not a nonterminal of its own. -/

namespace TransitionNetwork

/-! ### Writing and reading lines -/

/-- A rule on one line, as `A -> b + C`. -/
def RuleDefinition.line (rule : RuleDefinition) : String :=
  rule.lhs ++ " -> " ++ String.intercalate " + " rule.rhs

/-- A rule as it is written: every symbol by its name. -/
def Rule.definition (rule : Rule) : RuleDefinition := ⟨rule.generator, rule.elements.map Symbol.name⟩

theorem Rule.render_eq_line {rule : Rule} (h : rule.elements ≠ []) :
    rule.render = rule.definition.line := by
  have hnames : rule.elements.map Symbol.name ≠ [] := by simpa using h
  have harrow : " ->" ++ " " = " -> " := rfl
  rw [render, if_neg hnames, RuleDefinition.line, ← harrow]
  simp only [definition, String.append_assoc]

theorem Grammar.isWord_isBlank {word : String} (h : Text.IsWord separatesWords word) :
    Text.IsWord Text.isBlank word :=
  ⟨h.1, fun c hc => (Bool.or_eq_false_iff.mp (h.2 c hc)).1⟩

/-- A rule whose words are found again on its line: they are words, there is a right-hand side, and the line
does not look like a comment. -/
structure RuleDefinition.Writable (rule : RuleDefinition) : Prop where
  lhs : Text.IsWord Grammar.separatesWords rule.lhs
  rhs : ∀ word ∈ rule.rhs, Text.IsWord Grammar.separatesWords word
  rhs_ne_nil : rule.rhs ≠ []
  visible : rule.lhs.toList.head? ≠ some '#'

instance (rule : RuleDefinition) : Decidable rule.Writable :=
  decidable_of_iff (Text.IsWord Grammar.separatesWords rule.lhs ∧
      (∀ word ∈ rule.rhs, Text.IsWord Grammar.separatesWords word) ∧ rule.rhs ≠ [] ∧
      rule.lhs.toList.head? ≠ some '#')
    ⟨fun ⟨lhs, rhs, rhs_ne_nil, visible⟩ => ⟨lhs, rhs, rhs_ne_nil, visible⟩,
      fun ⟨lhs, rhs, rhs_ne_nil, visible⟩ => ⟨lhs, rhs, rhs_ne_nil, visible⟩⟩

namespace RuleDefinition.Writable

variable {rule : RuleDefinition}

theorem toList_line (rule : RuleDefinition) :
    rule.line.toList = rule.lhs.toList ++
      ([' ', '-', '>', ' '] ++ [' ', '+', ' '].intercalate (rule.rhs.map String.toList)) := by
  simp [line, String.toList_intercalate]

theorem wordsBy_line (h : rule.Writable) :
    Text.wordsBy Grammar.separatesWords rule.line = rule.lhs :: rule.rhs := by
  have harrow : ∀ c ∈ [' ', '-', '>', ' '], Grammar.separatesWords c = true := by
    simp [Grammar.separatesWords, Text.isBlank]
  have hsign : ∀ c ∈ [' ', '+', ' '], Grammar.separatesWords c = true := by
    simp [Grammar.separatesWords, Text.isBlank]
  have hwords : ∀ word ∈ rule.rhs.map String.toList,
      word ≠ [] ∧ ∀ c ∈ word, Grammar.separatesWords c = false := by
    intro word hword
    obtain ⟨name, hname, rfl⟩ := List.mem_map.mp hword
    exact h.rhs name hname
  rw [Text.wordsBy, toList_line, Text.runsFrom_word_gap h.lhs.1 h.lhs.2 (List.cons_ne_nil _ _) harrow,
    Text.runsFrom_intercalate (List.cons_ne_nil _ _) hsign hwords, List.map_cons, List.map_map]
  simp [Function.comp_def]

theorem isComment_line (h : rule.Writable) : Grammar.isComment rule.line = false := by
  obtain ⟨c, rest, hlhs⟩ := List.exists_cons_of_ne_nil h.lhs.1
  have hc : Text.isBlank c = false := (Grammar.isWord_isBlank h.lhs).2 c (by simp [hlhs])
  have hvisible := h.visible
  rw [hlhs, List.head?_cons] at hvisible
  rw [Grammar.isComment, toList_line, hlhs, List.cons_append, List.dropWhile_cons_of_neg (by simp [hc]),
    List.head?_cons]
  exact decide_eq_false hvisible

/-- A line does not go on behind its end. -/
theorem newline_not_mem (h : rule.Writable) : '\n' ∉ rule.line.toList := by
  have hword : ∀ {word : String}, Text.IsWord Grammar.separatesWords word → '\n' ∉ word.toList := by
    intro word hword hmem
    have hblank : Grammar.separatesWords '\n' = true := by decide +kernel
    rw [hword.2 _ hmem] at hblank
    cases hblank
  intro hmem
  rw [toList_line, List.mem_append, List.mem_append] at hmem
  rcases hmem with hlhs | harrow | hrhs
  · exact hword h.lhs hlhs
  · exact absurd harrow (by decide)
  · rcases Text.mem_of_mem_intercalate hrhs with hsign | ⟨word, hmem, hrhs⟩
    · exact absurd hsign (by decide)
    · obtain ⟨name, hname, rfl⟩ := List.mem_map.mp hmem
      exact hword (h.rhs name hname) hrhs

end RuleDefinition.Writable

namespace Grammar

def ProductionLine.rule (line : ProductionLine) : RuleDefinition := ⟨line.generator, line.words⟩

/-- What a text says: the rules on its lines. -/
def lineRules (text : String) : List RuleDefinition := (productionLines text).map ProductionLine.rule

/-- Rules line by line. -/
def lineText (rules : List RuleDefinition) : String :=
  String.intercalate "\n" (rules.map RuleDefinition.line)

/-- The rule on a line, without the number of the line. -/
def readLine? (line : String) : Option RuleDefinition :=
  if isComment line then none
  else
    match Text.wordsBy separatesWords line with
    | [] => none
    | lhs :: rhs => some ⟨lhs, rhs⟩

theorem lineRules_eq (text : String) : lineRules text = (Text.pieces '\n' text).filterMap readLine? := by
  have hread : ∀ line number, (ProductionLine.read? line number).map ProductionLine.rule =
      readLine? line := by
    intro line number
    rw [ProductionLine.read?, readLine?]
    split
    · rfl
    · cases Text.wordsBy separatesWords line <;> rfl
  have hlines : ((Text.pieces '\n' text).zipIdx 1).map Prod.fst = Text.pieces '\n' text :=
    List.zipIdx_map_fst 1 _
  rw [lineRules, productionLines, List.map_filterMap, ← hlines, List.filterMap_map, hlines]
  exact List.filterMap_congr fun entry _ => hread entry.1 entry.2

theorem lineRules_lineText {rules : List RuleDefinition} (h : ∀ rule ∈ rules, rule.Writable) :
    lineRules (lineText rules) = rules := by
  rw [lineRules_eq, lineText]
  by_cases hnone : rules = []
  · subst hnone
    rfl
  · have hlines : ∀ line ∈ rules.map RuleDefinition.line, '\n' ∉ line.toList := by
      intro line hline
      obtain ⟨rule, hrule, rfl⟩ := List.mem_map.mp hline
      exact (h rule hrule).newline_not_mem
    have hread : ∀ rule ∈ rules, (readLine? ∘ RuleDefinition.line) rule = some rule := by
      intro rule hrule
      have hwritable := h rule hrule
      simp only [Function.comp_apply, readLine?, hwritable.isComment_line, hwritable.wordsBy_line,
        Bool.false_eq_true, if_false]
    rw [Text.pieces_intercalate rfl (by simpa using hnone) hlines, List.filterMap_map,
      List.filterMap_congr hread, List.filterMap_some]

theorem isWord_of_mem_lineRules {text : String} {rule : RuleDefinition} (h : rule ∈ lineRules text) :
    Text.IsWord separatesWords rule.lhs ∧ ∀ word ∈ rule.rhs, Text.IsWord separatesWords word := by
  rw [lineRules_eq] at h
  obtain ⟨line, -, hread⟩ := List.mem_filterMap.mp h
  unfold readLine? at hread
  split at hread
  · cases hread
  · split at hread
    · cases hread
    · next lhs rhs hwords =>
      cases hread
      refine List.forall_mem_cons.mp fun word hword => ?_
      exact Text.isWord_of_mem_wordsBy (hwords ▸ hword)

/-! ### The grammar of written rules -/

/-- The rule that a written rule stands for, once the generators of all are declared. -/
def written (grammar : Grammar) (rule : RuleDefinition) : Rule :=
  ⟨rule.lhs, rule.rhs.map grammar.classifyWord⟩

/-- The grammar of some written rules. -/
def ofRules (rules : List RuleDefinition) : Grammar :=
  let base := ofGenerators (rules.map (·.lhs))
  (rules.map base.written).foldl addProduction base

/-- A text describes the grammar of the rules on its lines if each of them has a right-hand side. -/
theorem ofText_eq_ok_iff {text : String} {grammar : Grammar} :
    ofText text = .ok grammar ↔
      (∀ rule ∈ lineRules text, rule.rhs ≠ []) ∧ ofRules (lineRules text) = grammar := by
  have hgrammar : (productionLines text).foldl addLine
      (ofGenerators ((productionLines text).map (·.generator))) = ofRules (lineRules text) := by
    rw [foldl_addLine, ofRules, lineRules, List.map_map, List.map_map]
    rfl
  have hrhs : (productionLines text).find? (·.words.isEmpty) = none ↔
      ∀ rule ∈ lineRules text, rule.rhs ≠ [] := by
    rw [lineRules, List.forall_mem_map, List.find?_eq_none]
    simp [ProductionLine.rule]
  rw [ofText, hgrammar, ← hrhs]
  cases (productionLines text).find? (·.words.isEmpty) with
  | none => simp
  | some line => simp

variable {grammar base : Grammar} {rule : Rule} {name : String}

theorem addNonterminal_of_mem (h : name ∈ grammar.nonterminals) : grammar.addNonterminal name = grammar := by
  rw [addNonterminal, if_pos (hasNonterminal_iff.mpr h)]

theorem addTerminals_of_declared {symbols : List Symbol}
    (h : ∀ name, .terminal name ∈ symbols → name ∈ grammar.terminals) :
    grammar.addTerminals symbols = grammar := by
  induction symbols with
  | nil => rfl
  | cons symbol symbols ih =>
      have hrest := ih fun name hname => h name (List.mem_cons_of_mem _ hname)
      cases symbol with
      | terminal first =>
          have hfirst := hasTerminal_iff.mpr (h first List.mem_cons_self)
          rw [addTerminals, List.foldl_cons]
          dsimp only
          rw [addTerminal, if_pos hfirst]
          exact hrest
      | nonterminal => exact hrest
      | epsilon => exact hrest

/-- Of productions added one after the other, one that was there before changes nothing, and any other is
the last rule. -/
theorem addProduction_cases (hnone : base.rules = []) (rules : List Rule) (rule : Rule) :
    let grammar := rules.foldl addProduction base
    (rule ∈ grammar.rules ∧ grammar.addProduction rule = grammar) ∨
      (grammar.addProduction rule).rules = grammar.rules ++ [rule] := by
  intro grammar
  obtain ⟨-, -, hrules, hterminals⟩ := foldl_addProduction rules base
  by_cases hrule : rule ∈ grammar.rules
  · left
    have hmem : rule ∈ rules := by simpa [hnone] using (hrules rule).mp hrule
    have hdeclared : grammar.addTerminals rule.elements = grammar :=
      addTerminals_of_declared fun name hname =>
        (hterminals name).mpr (.inr ⟨rule, hmem, hname⟩)
    refine ⟨hrule, ?_⟩
    rw [addProduction, hdeclared, addRule, if_pos (by simpa [hasRule] using hrule)]
  · right
    have hsame : (grammar.addTerminals rule.elements).rules = grammar.rules :=
      (fields_addTerminals rule.elements grammar).2.2.1
    rw [addProduction, addRule, if_neg (by simpa [hasRule, hsame] using hrule)]
    dsimp only
    rw [hsame]

/-- The rules of a grammar give it again, and they have the generators of the productions in the order in
which these first came. The induction is on the productions from the last one on, which is new or was there
before. -/
theorem rules_foldl_addProduction (hnone : base.rules = []) (rules : List Rule) :
    let grammar := rules.foldl addProduction base
    grammar.rules.foldl addProduction base = grammar ∧
      (grammar.rules.map (·.generator)).head? = (rules.map (·.generator)).head? ∧
      ∀ start : Grammar, (grammar.rules.map (·.generator)).foldl addNonterminal start =
        (rules.map (·.generator)).foldl addNonterminal start := by
  induction rules using List.reverseRecOn with
  | nil => simp [hnone]
  | append_singleton rules rule ih =>
      obtain ⟨hgrammar, hhead, hgenerators⟩ := ih
      dsimp only
      rw [List.foldl_concat]
      rcases addProduction_cases hnone rules rule with ⟨hrule, hsame⟩ | hnew
      · have hmem : rule.generator ∈ (rules.foldl addProduction base).rules.map (·.generator) :=
          List.mem_map_of_mem hrule
        have hsome : rules.map (·.generator) ≠ [] := by
          intro hempty
          rw [hempty, List.head?_nil, List.head?_eq_none_iff] at hhead
          rw [hhead] at hmem
          cases hmem
        rw [hsame, List.map_append, List.map_singleton]
        refine ⟨hgrammar, ?_, fun start => ?_⟩
        · rw [hhead, List.head?_append_of_ne_nil _ hsome]
        · rw [List.foldl_concat, ← hgenerators, addNonterminal_of_mem]
          exact ((foldl_addNonterminal _ start).2.2.2.2 rule.generator).mpr (.inr hmem)
      · rw [hnew, List.map_append, List.map_append, List.map_singleton, List.foldl_concat, hgrammar]
        refine ⟨rfl, ?_, fun start => ?_⟩
        · rw [List.head?_append, List.head?_append, hhead]
        · rw [List.foldl_concat, List.foldl_concat, hgenerators]

/-! ### Reading the rules of a grammar -/

/-- A symbol is what its name is classified as, if the word for the empty production is free. -/
theorem classifyWord_name (hepsilon : epsilonWord ∉ grammar.nonterminals) (word : String) :
    grammar.classifyWord (grammar.classifyWord word).name = grammar.classifyWord word := by
  have hword : isEpsilonWord epsilonWord = true := by decide
  by_cases hdeclared : grammar.hasNonterminal word = true
  · simp only [classifyWord, if_pos hdeclared, Symbol.name]
  · by_cases hempty : isEpsilonWord word = true
    · simp [classifyWord, hdeclared, hempty, Symbol.name, hepsilon, hword]
    · simp [classifyWord, hdeclared, hempty, Symbol.name]

theorem name_classifyWord (grammar : Grammar) (word : String) :
    (grammar.classifyWord word).name = word ∨ (grammar.classifyWord word).name = epsilonWord := by
  unfold classifyWord
  split
  · exact .inl rfl
  · split
    · exact .inr rfl
    · exact .inl rfl

theorem written_definition (hepsilon : epsilonWord ∉ grammar.nonterminals) (rule : RuleDefinition) :
    grammar.written (grammar.written rule).definition = grammar.written rule := by
  simp only [written, Rule.definition, List.map_map]
  refine congrArg _ (List.map_congr_left fun word _ => ?_)
  exact classifyWord_name hepsilon word

theorem rules_ofGenerators (generators : List String) : (ofGenerators generators).rules = [] :=
  (foldl_addNonterminal generators { start := generators.head? }).2.2.1

theorem mem_nonterminals_ofGenerators {generators : List String} :
    name ∈ (ofGenerators generators).nonterminals ↔ name ∈ generators := by
  rw [ofGenerators, (foldl_addNonterminal generators _).2.2.2.2]
  simp

/-- The rules of a grammar are those that were written, and its nonterminals their generators. -/
theorem fields_ofRules (rules : List RuleDefinition) :
    (ofRules rules).nonterminals = (ofGenerators (rules.map (·.lhs))).nonterminals ∧
      ∀ rule, rule ∈ (ofRules rules).rules ↔
        ∃ source ∈ rules, (ofGenerators (rules.map (·.lhs))).written source = rule := by
  obtain ⟨-, hnonterminals, hrules, -⟩ := foldl_addProduction
    (rules.map (ofGenerators (rules.map (·.lhs))).written) (ofGenerators (rules.map (·.lhs)))
  refine ⟨hnonterminals, fun rule => ?_⟩
  rw [ofRules, hrules, rules_ofGenerators, List.mem_map]
  simp

/-- The rules of a grammar, written down, are those of the same grammar. -/
theorem ofRules_definition {rules : List RuleDefinition}
    (hepsilon : epsilonWord ∉ (ofRules rules).nonterminals) :
    ofRules ((ofRules rules).rules.map Rule.definition) = ofRules rules := by
  obtain ⟨hnonterminals, hrules⟩ := fields_ofRules rules
  set base := ofGenerators (rules.map (·.lhs)) with hbase
  obtain ⟨hgrammar, hhead, hgenerators⟩ :=
    rules_foldl_addProduction (rules_ofGenerators _) (rules.map base.written)
  have hlhs : (rules.map base.written).map (·.generator) = rules.map (·.lhs) := by
    rw [List.map_map]
    rfl
  have hagain : ofGenerators (((ofRules rules).rules.map Rule.definition).map (·.lhs)) = base := by
    have hnames : ((ofRules rules).rules.map Rule.definition).map (·.lhs) =
        (ofRules rules).rules.map (·.generator) := by
      rw [List.map_map]
      rfl
    rw [hlhs] at hhead hgenerators
    rw [hnames, ofGenerators, hbase, ofGenerators]
    exact hhead ▸ hgenerators _
  have hwritten : ((ofRules rules).rules.map Rule.definition).map base.written =
      (ofRules rules).rules := by
    rw [List.map_map]
    refine (List.map_congr_left fun rule hrule => ?_).trans (List.map_id _)
    obtain ⟨source, -, rfl⟩ := (hrules rule).mp hrule
    exact written_definition (hnonterminals ▸ hepsilon) source
  rw [ofRules, hagain, hwritten]
  exact hgrammar

/-- The rules that were read from a text can be written, unless a generator would start a comment. -/
theorem writable_definition {text : String} (hrhs : ∀ rule ∈ lineRules text, rule.rhs ≠ [])
    (hcomment : ∀ name ∈ (ofRules (lineRules text)).nonterminals, name.toList.head? ≠ some '#')
    (hrule : rule ∈ (ofRules (lineRules text)).rules) : rule.definition.Writable := by
  obtain ⟨hnonterminals, hrules⟩ := fields_ofRules (lineRules text)
  obtain ⟨source, hsource, rfl⟩ := (hrules rule).mp hrule
  obtain ⟨hlhs, hwords⟩ := isWord_of_mem_lineRules hsource
  refine ⟨hlhs, fun word hword => ?_, fun hnone => hrhs source hsource ?_, hcomment _ ?_⟩
  · obtain ⟨symbol, hsymbol, rfl⟩ := List.mem_map.mp hword
    obtain ⟨read, hread, rfl⟩ := List.mem_map.mp hsymbol
    rcases name_classifyWord (ofGenerators ((lineRules text).map (·.lhs))) read with heq | heq
    · rw [heq]
      exact hwords read hread
    · rw [heq]
      decide +kernel
  · simpa [Rule.definition, written] using hnone
  · rw [hnonterminals, mem_nonterminals_ofGenerators]
    exact List.mem_map.mpr ⟨source, hsource, rfl⟩

/-- Written line by line, the rules of a grammar in line notation describe the grammar: the start symbol, the
nonterminals, the terminals and the rules, all in their order. -/
theorem ofText_renderRules {text : String} (h : ofText text = .ok grammar)
    (hepsilon : epsilonWord ∉ grammar.nonterminals)
    (hcomment : ∀ name ∈ grammar.nonterminals, name.toList.head? ≠ some '#') :
    ofText grammar.renderRules = .ok grammar := by
  obtain ⟨hrhs, rfl⟩ := ofText_eq_ok_iff.mp h
  have hwritable : ∀ rule ∈ (ofRules (lineRules text)).rules.map Rule.definition, rule.Writable := by
    intro rule hrule
    obtain ⟨source, hsource, rfl⟩ := List.mem_map.mp hrule
    exact writable_definition hrhs hcomment hsource
  have htext : (ofRules (lineRules text)).renderRules =
      lineText ((ofRules (lineRules text)).rules.map Rule.definition) := by
    rw [renderRules, lineText, List.map_map]
    refine congrArg _ (List.map_congr_left fun rule hrule => Rule.render_eq_line ?_)
    exact fun hempty => (writable_definition hrhs hcomment hrule).rhs_ne_nil
      (by rw [Rule.definition, hempty, List.map_nil])
  rw [htext, ofText_eq_ok_iff, lineRules_lineText hwritable]
  exact ⟨fun rule hrule => (hwritable rule hrule).rhs_ne_nil, ofRules_definition hepsilon⟩

/-- All kinds of signs, a comment, an empty line, a rule that comes twice and a word that reads like the empty
production but for its case. -/
def signs : String := "  # signs\nS = 'det' * N\n\nN => EPSILON\nN -> n<S\nS - det >N\nEpsilon n"

def sign : Grammar where
  start := some "S"
  nonterminals := ["S", "N", "Epsilon"]
  terminals := ["det", "n"]
  rules := [⟨"S", [.terminal "det", .nonterminal "N"]⟩, ⟨"N", [.epsilon]⟩,
    ⟨"N", [.terminal "n", .nonterminal "S"]⟩, ⟨"Epsilon", [.terminal "n"]⟩]

theorem signs_renderRules :
    ofText signs = .ok sign ∧
      sign.renderRules = "S -> det + N\nN -> epsilon\nN -> n + S\nEpsilon -> n" ∧
      ofText "S -> det + N\nN -> epsilon\nN -> n + S\nEpsilon -> n" = .ok sign := by
  have hsigns : ofText signs = .ok sign := by decide +kernel
  have hrender : sign.renderRules = "S -> det + N\nN -> epsilon\nN -> n + S\nEpsilon -> n" := by
    decide +kernel
  refine ⟨hsigns, hrender, ?_⟩
  rw [← hrender]
  exact ofText_renderRules hsigns (by decide) (by decide)

end Grammar

end TransitionNetwork
