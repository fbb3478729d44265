import TransitionNetwork.Proofs.NetworkAssembly
import TransitionNetwork.Grammar.Definition
import Mathlib.Data.List.Nodup

/-! What the two notations of grammars guarantee. The lines of a text and the rules of a definition are read
twice: first for their generators, which are then all the nonterminals, and again for their words, each of
which is classified by the nonterminals of the first reading. So the rules use declared symbols only, and
every nonterminal has a rule. Of what a check can report there remain the start symbol, a listed terminal
that is a generator too, and left recursion; the start symbol of a text is its first generator, and a text
lists no terminals. -/

namespace TransitionNetwork

namespace Text

theorem runsFrom_eq_nil_iff {separates : Char → Bool} {current chars : List Char} :
    runsFrom separates current chars = [] ↔ current = [] ∧ ∀ c ∈ chars, separates c = true := by
  fun_induction runsFrom separates current chars with
  | case1 => simp
  | case2 current hcurrent => simp [hcurrent]
  | case3 c rest hc ih => simp [ih, hc]
  | case4 current c rest hc hcurrent ih => simp [hcurrent]
  | case5 current c rest hc ih => simp [ih, hc]

theorem wordsBy_eq_nil_iff {separates : Char → Bool} {text : String} :
    wordsBy separates text = [] ↔ ∀ c ∈ text.toList, separates c = true := by
  rw [wordsBy, List.map_eq_nil_iff, runsFrom_eq_nil_iff]
  simp

end Text

namespace Grammar

variable {grammar : Grammar} {name : String}

/-! ### Declarations -/

@[simp] theorem start_addNonterminal (grammar : Grammar) (name : String) :
    (grammar.addNonterminal name).start = grammar.start := by
  unfold addNonterminal
  split <;> rfl

@[simp] theorem terminals_addNonterminal (grammar : Grammar) (name : String) :
    (grammar.addNonterminal name).terminals = grammar.terminals := by
  unfold addNonterminal
  split <;> rfl

@[simp] theorem rules_addNonterminal (grammar : Grammar) (name : String) :
    (grammar.addNonterminal name).rules = grammar.rules := by
  unfold addNonterminal
  split <;> rfl

theorem nodup_addNonterminal (h : grammar.nonterminals.Nodup) (name : String) :
    (grammar.addNonterminal name).nonterminals.Nodup := by
  unfold addNonterminal
  split
  · exact h
  · next hnew =>
    rw [hasNonterminal_iff] at hnew
    exact h.append (List.nodup_singleton name) (by simpa using hnew)

/-- Declaring names adds them to the nonterminals, each once, and nothing else. -/
theorem foldl_addNonterminal (names : List String) (base : Grammar) :
    let grammar := names.foldl addNonterminal base
    grammar.start = base.start ∧ grammar.terminals = base.terminals ∧ grammar.rules = base.rules ∧
      (base.nonterminals.Nodup → grammar.nonterminals.Nodup) ∧
      ∀ name, name ∈ grammar.nonterminals ↔ name ∈ base.nonterminals ∨ name ∈ names := by
  induction names generalizing base with
  | nil => simp
  | cons first names ih =>
      obtain ⟨hstart, hterminals, hrules, hnodup, hmem⟩ := ih (base.addNonterminal first)
      rw [start_addNonterminal] at hstart
      rw [terminals_addNonterminal] at hterminals
      rw [rules_addNonterminal] at hrules
      refine ⟨hstart, hterminals, hrules, fun h => hnodup (nodup_addNonterminal h first), ?_⟩
      intro name
      rw [List.foldl_cons, hmem, mem_nonterminals_addNonterminal, List.mem_cons, or_assoc]

@[simp] theorem start_addTerminal (grammar : Grammar) (name : String) :
    (grammar.addTerminal name).start = grammar.start := by
  unfold addTerminal
  split <;> rfl

@[simp] theorem nonterminals_addTerminal (grammar : Grammar) (name : String) :
    (grammar.addTerminal name).nonterminals = grammar.nonterminals := by
  unfold addTerminal
  split <;> rfl

@[simp] theorem rules_addTerminal (grammar : Grammar) (name : String) :
    (grammar.addTerminal name).rules = grammar.rules := by
  unfold addTerminal
  split <;> rfl

theorem mem_terminals_addTerminal {other : String} :
    other ∈ (grammar.addTerminal name).terminals ↔ other ∈ grammar.terminals ∨ other = name := by
  unfold addTerminal
  split
  · next hdeclared =>
    rw [hasTerminal_iff] at hdeclared
    constructor
    · exact .inl
    · rintro (hother | rfl)
      · exact hother
      · exact hdeclared
  · simp

/-- Listing terminals leaves the nonterminals and the rules as they are. -/
theorem foldl_addTerminal (names : List String) (base : Grammar) :
    let grammar := names.foldl addTerminal base
    grammar.nonterminals = base.nonterminals ∧ grammar.rules = base.rules := by
  induction names generalizing base with
  | nil => exact ⟨rfl, rfl⟩
  | cons first names ih => simpa using ih (base.addTerminal first)

/-! ### Productions -/

/-- The terminals among the symbols are declared, and nothing else. -/
theorem fields_addTerminals (symbols : List Symbol) (base : Grammar) :
    let grammar := base.addTerminals symbols
    grammar.start = base.start ∧ grammar.nonterminals = base.nonterminals ∧
      grammar.rules = base.rules ∧
      ∀ name, name ∈ grammar.terminals ↔ name ∈ base.terminals ∨ .terminal name ∈ symbols := by
  induction symbols generalizing base with
  | nil => simp [addTerminals]
  | cons symbol symbols ih =>
      cases symbol with
      | terminal first =>
          obtain ⟨hstart, hnonterminals, hrules, hmem⟩ := ih (base.addTerminal first)
          rw [start_addTerminal] at hstart
          rw [nonterminals_addTerminal] at hnonterminals
          rw [rules_addTerminal] at hrules
          refine ⟨hstart, hnonterminals, hrules, fun name => (hmem name).trans ?_⟩
          rw [mem_terminals_addTerminal, List.mem_cons, Symbol.terminal.injEq, or_assoc]
      | nonterminal => simpa [addTerminals] using ih base
      | epsilon => simpa [addTerminals] using ih base

theorem mem_rules_addRule {rule other : Rule} :
    other ∈ (grammar.addRule rule).rules ↔ other ∈ grammar.rules ∨ other = rule := by
  unfold addRule
  split
  · next hthere =>
    have hrule : rule ∈ grammar.rules := by simpa [hasRule] using hthere
    constructor
    · exact .inl
    · rintro (hother | rfl)
      · exact hother
      · exact hrule
  · simp

@[simp] theorem start_addRule (grammar : Grammar) (rule : Rule) :
    (grammar.addRule rule).start = grammar.start := by
  unfold addRule
  split <;> rfl

@[simp] theorem nonterminals_addRule (grammar : Grammar) (rule : Rule) :
    (grammar.addRule rule).nonterminals = grammar.nonterminals := by
  unfold addRule
  split <;> rfl

@[simp] theorem terminals_addRule (grammar : Grammar) (rule : Rule) :
    (grammar.addRule rule).terminals = grammar.terminals := by
  unfold addRule
  split <;> rfl

@[simp] theorem nonterminals_addProduction (grammar : Grammar) (rule : Rule) :
    (grammar.addProduction rule).nonterminals = grammar.nonterminals := by
  rw [addProduction, nonterminals_addRule]
  exact (fields_addTerminals rule.elements grammar).2.1

@[simp] theorem hasNonterminal_addProduction (grammar : Grammar) (rule : Rule) (name : String) :
    (grammar.addProduction rule).hasNonterminal name = grammar.hasNonterminal name := by
  rw [hasNonterminal, nonterminals_addProduction, hasNonterminal]

/-- Productions add themselves and their terminals, and nothing else. -/
theorem foldl_addProduction (rules : List Rule) (base : Grammar) :
    let grammar := rules.foldl addProduction base
    grammar.start = base.start ∧ grammar.nonterminals = base.nonterminals ∧
      (∀ rule, rule ∈ grammar.rules ↔ rule ∈ base.rules ∨ rule ∈ rules) ∧
      ∀ name, name ∈ grammar.terminals ↔
        name ∈ base.terminals ∨ ∃ rule ∈ rules, .terminal name ∈ rule.elements := by
  induction rules generalizing base with
  | nil => simp
  | cons first rules ih =>
      obtain ⟨hstart, hnonterminals, hrules, hterminals⟩ := ih (base.addProduction first)
      obtain ⟨hstart', hnonterminals', hrules', hterminals'⟩ :=
        fields_addTerminals first.elements base
      refine ⟨hstart.trans ?_, hnonterminals.trans (nonterminals_addProduction base first), ?_, ?_⟩
      · rw [addProduction, start_addRule, hstart']
      · intro rule
        rw [List.foldl_cons, hrules, addProduction, mem_rules_addRule, hrules', List.mem_cons,
          or_assoc]
      · intro name
        rw [List.foldl_cons, hterminals, addProduction, terminals_addRule, hterminals',
          List.exists_mem_cons_iff, or_assoc]

/-- Where the declarations alone decide on the productions, those before do not matter. -/
theorem foldl_produce {α : Type} (produce : Grammar → α → Rule)
    (hsame : ∀ grammar rule, produce (grammar.addProduction rule) = produce grammar) (items : List α)
    (base : Grammar) :
    items.foldl (fun grammar item => grammar.addProduction (produce grammar item)) base =
      (items.map (produce base)).foldl addProduction base := by
  induction items generalizing base with
  | nil => rfl
  | cons item items ih => rw [List.foldl_cons, ih, hsame, List.map_cons, List.foldl_cons]

/-! ### What a loader guarantees -/

/-- The nonterminals of the grammar agree with what a symbol is. -/
def Recognises (grammar : Grammar) : Symbol → Prop
  | .terminal name => name ∉ grammar.nonterminals
  | .nonterminal name => name ∈ grammar.nonterminals
  | .epsilon => True

theorem Recognises.symbolError?_eq_none {symbol : Symbol} (h : grammar.Recognises symbol)
    (rule : Rule) : grammar.symbolError? rule symbol = none := by
  cases symbol with
  | terminal name => rw [symbolError?, if_neg (hasNonterminal_iff.not.mpr h)]
  | nonterminal name => rw [symbolError?, if_pos (hasNonterminal_iff.mpr h)]
  | epsilon => rfl

/-- A rule of declared symbols. -/
structure Declares (grammar : Grammar) (rule : Rule) : Prop where
  generator : rule.generator ∈ grammar.nonterminals
  elements : ∀ symbol ∈ rule.elements, grammar.Recognises symbol

theorem Declares.congr {other : Grammar} {rule : Rule} (h : grammar.Declares rule)
    (hsame : other.nonterminals = grammar.nonterminals) : other.Declares rule := by
  refine ⟨hsame ▸ h.generator, fun symbol hsymbol => ?_⟩
  have helement := h.elements symbol hsymbol
  cases symbol with
  | terminal name => rwa [Recognises, hsame]
  | nonterminal name => rwa [Recognises, hsame]
  | epsilon => trivial

theorem Declares.ruleError?_eq_none {rule : Rule} (h : grammar.Declares rule) :
    grammar.ruleError? rule = none := by
  rw [ruleError?, if_pos (hasNonterminal_iff.mpr h.generator), List.findSome?_eq_none_iff]
  intro symbol hsymbol
  exact (h.elements symbol hsymbol).symbolError?_eq_none rule

/-- A grammar as a loader leaves it: nonterminals are declared once and have rules, and the rules use
declared symbols. -/
structure Loaded (grammar : Grammar) : Prop where
  nodup : grammar.nonterminals.Nodup
  declares : ∀ rule ∈ grammar.rules, grammar.Declares rule
  productive : ∀ name ∈ grammar.nonterminals, ∃ rule ∈ grammar.rules, rule.generator = name

namespace Loaded

theorem rulesError?_eq_none (h : grammar.Loaded) : grammar.rulesError? = none :=
  List.findSome?_eq_none_iff.mpr fun rule hrule => (h.declares rule hrule).ruleError?_eq_none

theorem barren?_eq_none (h : grammar.Loaded) : grammar.barren? = none := by
  rw [barren?, Option.map_eq_none_iff, List.find?_eq_none]
  intro name hname
  obtain ⟨rule, hrule, hgenerator⟩ := h.productive name hname
  have hmem : rule ∈ grammar.rulesFor name := mem_rulesFor.mpr ⟨hrule, hgenerator⟩
  simpa using List.ne_nil_of_mem hmem

/-- Four faults remain, and each is reported of a grammar that has it. -/
theorem check_eq_error (h : grammar.Loaded) {error : CompileError}
    (hcheck : grammar.check = .error error) :
    (error = .missingStart ∧ grammar.start = none) ∨
      (∃ name, error = .unknownStart name ∧ grammar.start = some name ∧
        name ∉ grammar.nonterminals) ∨
      (∃ name, error = .symbolClash name ∧ name ∈ grammar.terminals ∧
        name ∈ grammar.nonterminals) ∨
      ∃ name, error = .leftRecursion name ∧ grammar.LeftRecursive name := by
  cases hstart : grammar.start with
  | none =>
      rw [check, hstart] at hcheck
      cases hcheck
      exact .inl ⟨rfl, rfl⟩
  | some start =>
      by_cases hdeclared : grammar.hasNonterminal start = true
      · cases hclash : grammar.clash? with
        | none =>
            have hwell : grammar.Wellformed :=
              ⟨⟨start, hstart, hdeclared⟩, hclash, h.rulesError?_eq_none, h.barren?_eq_none⟩
            obtain ⟨name, -, -, rfl, -, hrecursive, -⟩ :=
              hwell.recursionError?_eq_some_iff.mp (hwell.check_eq_error_iff.mp hcheck)
            exact .inr (.inr (.inr ⟨name, rfl, hrecursive⟩))
        | some found =>
            have herror : found = error := by
              simpa [check, hstart, hasNonterminal_iff.mp hdeclared, hclash] using hcheck
            obtain ⟨name, hname, rfl⟩ := Option.map_eq_some_iff.mp hclash
            exact .inr (.inr (.inl ⟨name, herror.symm, List.mem_of_find?_eq_some hname,
              hasNonterminal_iff.mp (List.find?_some hname)⟩))
      · rw [check, hstart] at hcheck
        dsimp only at hcheck
        rw [if_neg hdeclared] at hcheck
        cases hcheck
        exact .inr (.inl ⟨start, rfl, rfl, hasNonterminal_iff.not.mp hdeclared⟩)

end Loaded

/-- Rules that are added to declarations make a loaded grammar if they use the declared symbols, and if
every declared nonterminal is the generator of one of them. -/
theorem loaded_foldl_addProduction {base : Grammar} {rules : List Rule}
    (hnodup : base.nonterminals.Nodup) (hnone : base.rules = [])
    (hdeclares : ∀ rule ∈ rules, base.Declares rule)
    (hproductive : ∀ name ∈ base.nonterminals, ∃ rule ∈ rules, rule.generator = name) :
    (rules.foldl addProduction base).Loaded := by
  obtain ⟨-, hnonterminals, hrules, -⟩ := foldl_addProduction rules base
  simp only [hnone, List.not_mem_nil, false_or] at hrules
  refine ⟨hnonterminals ▸ hnodup, ?_, ?_⟩
  · intro rule hrule
    exact (hdeclares rule ((hrules rule).mp hrule)).congr hnonterminals
  · intro name hname
    rw [hnonterminals] at hname
    obtain ⟨rule, hrule, hgenerator⟩ := hproductive name hname
    exact ⟨rule, (hrules rule).mpr hrule, hgenerator⟩

/-! ### The line notation -/

/-- No line of the text holds a production: each is a comment or has no word. -/
def WithoutProductions (text : String) : Prop :=
  ∀ line ∈ Text.pieces '\n' text,
    isComment line = true ∨ ∀ c ∈ line.toList, separatesWords c = true

theorem read?_eq_none_iff {line : String} {number : Nat} :
    ProductionLine.read? line number = none ↔
      isComment line = true ∨ ∀ c ∈ line.toList, separatesWords c = true := by
  rw [← Text.wordsBy_eq_nil_iff, ProductionLine.read?]
  split
  · next hcomment => simp [hcomment]
  · next hcomment =>
    cases Text.wordsBy separatesWords line with
    | nil => simp
    | cons generator words => simpa using hcomment

theorem productionLines_eq_nil_iff {text : String} :
    productionLines text = [] ↔ WithoutProductions text := by
  have hlines : ((Text.pieces '\n' text).zipIdx 1).map Prod.fst = Text.pieces '\n' text :=
    List.zipIdx_map_fst 1 _
  rw [WithoutProductions, ← hlines, productionLines, List.filterMap_eq_nil_iff, List.forall_mem_map]
  simp only [read?_eq_none_iff]

theorem recognises_classifyWord (grammar : Grammar) (word : String) :
    grammar.Recognises (grammar.classifyWord word) := by
  unfold classifyWord
  split
  · next hdeclared => exact hasNonterminal_iff.mp hdeclared
  · next hnew =>
    split
    · trivial
    · exact hasNonterminal_iff.not.mp hnew

@[simp] theorem classifyWord_addProduction (grammar : Grammar) (rule : Rule) :
    (grammar.addProduction rule).classifyWord = grammar.classifyWord := by
  funext word
  simp only [classifyWord, hasNonterminal_addProduction]

/-- The rule of a line, once the generators of all lines are declared. -/
def lineRule (grammar : Grammar) (line : ProductionLine) : Rule :=
  ⟨line.generator, line.words.map grammar.classifyWord⟩

theorem foldl_addLine (lines : List ProductionLine) (base : Grammar) :
    lines.foldl addLine base = (lines.map base.lineRule).foldl addProduction base := by
  refine foldl_produce lineRule (fun grammar rule => ?_) lines base
  funext line
  simp only [lineRule, classifyWord_addProduction]

theorem declares_lineRule {line : ProductionLine} (h : line.generator ∈ grammar.nonterminals) :
    grammar.Declares (grammar.lineRule line) := by
  refine ⟨h, fun symbol hsymbol => ?_⟩
  obtain ⟨word, -, rfl⟩ := List.mem_map.mp hsymbol
  exact recognises_classifyWord grammar word

/-- The generators of the lines are the nonterminals, the first of them is the start symbol, and no terminal
is a nonterminal too. -/
theorem loaded_of_ofText {text : String} (h : ofText text = .ok grammar) :
    grammar.Loaded ∧ (grammar.start = none ↔ WithoutProductions text) ∧
      (∀ name, grammar.start = some name → name ∈ grammar.nonterminals) ∧
      ∀ name ∈ grammar.terminals, name ∉ grammar.nonterminals := by
  rw [← productionLines_eq_nil_iff]
  rw [ofText] at h
  generalize productionLines text = lines at h ⊢
  split at h
  · cases h
  · cases h
    set base := ofGenerators (lines.map (·.generator)) with hbase
    obtain ⟨hstart, hterminals, hrules, hnodup, hmem⟩ :=
      foldl_addNonterminal (lines.map (·.generator)) { start := (lines.map (·.generator)).head? }
    rw [← ofGenerators, ← hbase] at hstart hterminals hrules hnodup hmem
    have hgenerators : ∀ name, name ∈ base.nonterminals ↔ ∃ line ∈ lines, line.generator = name := by
      simpa using hmem
    have hdeclares : ∀ rule ∈ lines.map base.lineRule, base.Declares rule := by
      intro rule hrule
      obtain ⟨line, hline, rfl⟩ := List.mem_map.mp hrule
      exact declares_lineRule ((hgenerators _).mpr ⟨line, hline, rfl⟩)
    rw [foldl_addLine]
    obtain ⟨hstart', hnonterminals, -, hterminals'⟩ :=
      foldl_addProduction (lines.map base.lineRule) base
    refine ⟨loaded_foldl_addProduction (hnodup List.nodup_nil) hrules hdeclares ?_, ?_, ?_, ?_⟩
    · intro name hname
      obtain ⟨line, hline, rfl⟩ := (hgenerators name).mp hname
      exact ⟨base.lineRule line, List.mem_map_of_mem hline, rfl⟩
    · rw [hstart', hstart]
      simp
    · intro name hname
      rw [hstart', hstart] at hname
      rw [hnonterminals, hmem]
      exact .inr (List.mem_of_mem_head? hname)
    · intro name hname
      rw [hterminals', hterminals] at hname
      obtain hname | ⟨rule, hrule, hname⟩ := hname
      · cases hname
      · rw [hnonterminals]
        exact (hdeclares rule hrule).elements _ hname

end Grammar

/-! ### Definitions -/

namespace Definition

theorem recognises_classifyWord (grammar : Grammar) (word : String) :
    grammar.Recognises (classifyWord grammar word) := by
  unfold classifyWord
  split
  · trivial
  · split
    · next hdeclared => exact Grammar.hasNonterminal_iff.mp hdeclared
    · next hnew => exact Grammar.hasNonterminal_iff.not.mp hnew

@[simp] theorem classifyWord_addProduction (grammar : Grammar) (rule : Rule) :
    classifyWord (grammar.addProduction rule) = classifyWord grammar := by
  funext word
  simp only [classifyWord, Grammar.hasNonterminal_addProduction]

theorem recognises_of_mem_classifyRhs {grammar : Grammar} {rhs : List String} {symbol : Symbol}
    (h : symbol ∈ classifyRhs grammar rhs) : grammar.Recognises symbol := by
  unfold classifyRhs at h
  split at h
  · rw [List.mem_singleton.mp h]
    trivial
  · obtain ⟨word, -, rfl⟩ := List.mem_map.mp h
    exact recognises_classifyWord grammar word

/-- The rule of a rule definition, once the generators of all of them are declared. -/
def production (grammar : Grammar) (rule : RuleDefinition) : Rule :=
  ⟨rule.lhs, classifyRhs grammar rule.rhs⟩

theorem foldl_addRule (rules : List RuleDefinition) (base : Grammar) :
    rules.foldl addRule base = (rules.map (production base)).foldl Grammar.addProduction base := by
  refine Grammar.foldl_produce production (fun grammar rule => ?_) rules base
  funext source
  simp only [production, classifyRhs, classifyWord_addProduction]

/-- The left-hand sides are the nonterminals, and there is a start symbol. -/
theorem loaded_of_toGrammar {definition : Definition} {grammar : Grammar}
    (h : definition.toGrammar = .ok grammar) : grammar.Loaded ∧ grammar.start ≠ none := by
  rw [toGrammar] at h
  split at h
  · cases h
  · next hnone =>
    cases h
    set base := definition.declarations with hbase
    obtain ⟨-, -, hrules, hnodup, hmem⟩ :=
      Grammar.foldl_addNonterminal (definition.rules.map (·.lhs)) {}
    rw [List.foldl_map] at hrules hnodup hmem
    obtain ⟨hnonterminals', hrules'⟩ := Grammar.foldl_addTerminal definition.terminals
      (definition.rules.foldl (fun grammar rule => grammar.addNonterminal rule.lhs) {})
    rw [← declarations, ← hbase] at hnonterminals' hrules'
    rw [← hnonterminals'] at hnodup hmem
    rw [← hrules'] at hrules
    have hgenerators : ∀ name,
        name ∈ base.nonterminals ↔ ∃ rule ∈ definition.rules, rule.lhs = name := by
      simpa using hmem
    have hloaded : (definition.rules.foldl addRule base).Loaded := by
      rw [foldl_addRule]
      refine Grammar.loaded_foldl_addProduction (hnodup List.nodup_nil) hrules ?_ ?_
      · intro rule hrule
        obtain ⟨source, hsource, rfl⟩ := List.mem_map.mp hrule
        exact ⟨(hgenerators _).mpr ⟨source, hsource, rfl⟩,
          fun _ hsymbol => recognises_of_mem_classifyRhs hsymbol⟩
      · intro name hname
        obtain ⟨source, hsource, rfl⟩ := (hgenerators name).mp hname
        exact ⟨production base source, List.mem_map_of_mem hsource, rfl⟩
    refine ⟨⟨hloaded.nodup, fun rule hrule => (hloaded.declares rule hrule).congr rfl,
      hloaded.productive⟩, ?_⟩
    rw [error?] at hnone
    split at hnone
    · cases hnone
    · next hsome =>
      obtain ⟨first, rest, hfirst⟩ := List.exists_cons_of_ne_nil hsome
      simp [startSymbol, hfirst]

end Definition

namespace Grammar

/-- A text that can be read compiles unless it is left-recursive or has no production, and a definition
unless its start symbol is unknown, a listed terminal is a generator, or it is left-recursive. With
nonterminals that are declared once, the machines of a grammar always make a network, in which there is one
for each nonterminal, that of the start symbol first, and every call has a machine to go to. -/
theorem compile_loaded :
    (∀ text grammar, ofText text = .ok grammar →
      (∀ error, grammar.compile = .error error →
        error = .missingStart ∨
          ∃ name, error = .leftRecursion name ∧ grammar.LeftRecursive name) ∧
      (grammar.compile = .error .missingStart ↔ WithoutProductions text)) ∧
    (∀ (definition : Definition) (grammar : Grammar), definition.toGrammar = .ok grammar →
      ∀ error, grammar.compile = .error error →
        (∃ name, error = .unknownStart name ∧ grammar.start = some name ∧
          name ∉ grammar.nonterminals) ∨
        (∃ name, error = .symbolClash name ∧ name ∈ grammar.terminals ∧
          name ∈ grammar.nonterminals) ∨
        ∃ name, error = .leftRecursion name ∧ grammar.LeftRecursive name) ∧
    ∀ grammar : Grammar, grammar.nonterminals.Nodup →
      (∀ error, grammar.compile ≠ .error (.network error)) ∧
      ∀ compiled, grammar.compile = .ok compiled →
        (compiled.network.machines.map (·.name)).Perm grammar.nonterminals ∧
        grammar.start = some compiled.start ∧ compiled.network.start.name = compiled.start ∧
        compiled.network.machines.head? = some compiled.network.start ∧
        ∀ machine ∈ compiled.network.machines, ∀ state ∈ machine.states, ∀ call ∈ state.calls,
          ∃ callee ∈ compiled.network.machines,
            compiled.network.machine? call.callee = some callee := by
  refine ⟨fun text grammar htext => ?_, fun definition grammar hdefinition error herror => ?_,
    fun grammar hnodup => ⟨fun error herror => ?_, fun compiled hcompile => ?_⟩⟩
  · obtain ⟨hloaded, hempty, hdeclared, hapart⟩ := loaded_of_ofText htext
    rw [compile_eq_error_iff hloaded.nodup, ← hempty]
    refine ⟨fun error herror => ?_, fun herror => ?_, fun hstart => by rw [check, hstart]⟩
    · rw [compile_eq_error_iff hloaded.nodup] at herror
      obtain ⟨rfl, -⟩ | ⟨name, -, hstart, hunknown⟩ | ⟨name, -, hterminal, hnonterminal⟩ | hrecursion :=
        hloaded.check_eq_error herror
      · exact .inl rfl
      · exact absurd (hdeclared name hstart) hunknown
      · exact absurd hnonterminal (hapart name hterminal)
      · exact .inr hrecursion
    · rcases hloaded.check_eq_error herror with hmissing | ⟨_, h, _⟩ | ⟨_, h, _⟩ | ⟨_, h, _⟩
      · exact hmissing.2
      all_goals cases h
  · obtain ⟨hloaded, hstart⟩ := Definition.loaded_of_toGrammar hdefinition
    rw [compile_eq_error_iff hloaded.nodup] at herror
    exact (hloaded.check_eq_error herror).resolve_left fun hmissing => hstart hmissing.2
  · rw [compile_eq_error_iff hnodup] at herror
    exact check_ne_network grammar error herror
  · obtain ⟨hperm, hstart, hname, hfirst⟩ := machines_of_compile hnodup hcompile
    exact ⟨hperm, hstart, hname, hfirst,
      fun _ hmachine _ hstate _ hcall => compiled.network.exists_callee hmachine hstate hcall⟩

def phrases : String := "# phrases\nS -> N + v\n\nN -> n"

def phrase : Grammar where
  start := some "S"
  nonterminals := ["S", "N"]
  terminals := ["v", "n"]
  rules := [⟨"S", [.nonterminal "N", .terminal "v"]⟩, ⟨"N", [.terminal "n"]⟩]

/-- Lists a generator among the terminals. -/
def clashing : Definition where
  terminals := ["v", "n", "N"]
  rules := [⟨"S", ["N", "v"]⟩, ⟨"N", ["n"]⟩]

/-- Phrases have a network, a text of comments and signs has no start symbol, and the clash is found. -/
theorem phrases_compile_loaded :
    (ofText phrases = .ok phrase ∧ ¬ WithoutProductions phrases ∧
      ∃ compiled, phrase.compile = .ok compiled ∧
        (compiled.network.machines.map (·.name)).Perm ["S", "N"] ∧
        compiled.network.machines.head? = some compiled.network.start) ∧
    (ofText "# none\n ->" = .ok {} ∧ WithoutProductions "# none\n ->" ∧
      compile {} = .error .missingStart) ∧
    ∃ name, clashing.toGrammar = .ok { phrase with terminals := clashing.terminals } ∧
      compile { phrase with terminals := clashing.terminals } = .error (.symbolClash name) ∧
      name ∈ clashing.terminals ∧ name ∈ phrase.nonterminals := by
  obtain ⟨htext, hdefinition, hnetwork⟩ := compile_loaded
  refine ⟨?_, ?_, ?_⟩
  · have hphrase : ofText phrases = .ok phrase := by decide +kernel
    have hok : (match phrase.compile with
        | .ok _ => true
        | .error _ => false) = true := by cbv
    split at hok
    · next compiled hcompile =>
      obtain ⟨hperm, -, -, hfirst, -⟩ := (hnetwork phrase (by decide)).2 compiled hcompile
      refine ⟨hphrase, fun hnone => ?_, compiled, hcompile, hperm, hfirst⟩
      rw [(htext phrases phrase hphrase).2.mpr hnone] at hcompile
      cases hcompile
    · cases hok
  · have hnone : ofText "# none\n ->" = .ok {} := by decide +kernel
    exact ⟨hnone, (htext _ _ hnone).2.mp rfl, rfl⟩
  · have hgrammar : clashing.toGrammar = .ok { phrase with terminals := clashing.terminals } := by
      decide +kernel
    have herror : compile { phrase with terminals := clashing.terminals } =
        .error (.symbolClash "N") := by rfl
    obtain ⟨_, h, -⟩ | ⟨name, h, hname⟩ | ⟨_, h, -⟩ := hdefinition clashing _ hgrammar _ herror
    · cases h
    · exact ⟨name, hgrammar, h ▸ herror, hname⟩
    · cases h

end Grammar

end TransitionNetwork
